import CelShell.Expr.Basic
import CelShell.Proofs.Source.Place

/-!
# Where the nodes of a tree stand

A node is located if its span is a stretch of the text that holds the spans of its children, which
stand one after the other in it (`Expr.IsLocated`). Trees in a row are what the parser puts
together: `Row` says that they stand one after the other between two offsets, with all of their
nodes located, and a node around a row is a row of one tree (`Row.node`).
-/

namespace CelShell

namespace Expr

variable {α : Type}

/-- The children of a node, in source order. -/
def children : Expr α → List (Expr α)
  | ident _ _ | literal _ _ => []
  | select _ operand _ _ => [operand]
  | call _ _ args => args
  | invoke _ target _ args => target :: args
  | list _ elements => elements
  | map _ entries => entries.flatMap fun e => [e.1, e.2]
  | comprehension _ _ _ range body => [range, body]

/-- The nodes of expressions, one expression after the other. -/
theorem nodesOfList_eq (es : List (Expr α)) : nodesOfList es = es.flatMap nodes := by
  induction es with
  | nil => rfl
  | cons e rest ih => rw [nodesOfList, ih, List.flatMap_cons]

/-- The nodes of entries, those of each key before those of its value. -/
theorem nodesOfEntries_eq (entries : List (Expr α × Expr α)) :
    nodesOfEntries entries = (entries.flatMap fun e => [e.1, e.2]).flatMap nodes := by
  induction entries with
  | nil => rfl
  | cons e rest ih => simp [nodesOfEntries, ih]

/-- The nodes of a tree are its root and those of its children. -/
theorem nodes_eq (e : Expr α) : e.nodes = e :: e.children.flatMap nodes := by
  cases e <;> simp [nodes, children, nodesOfList_eq, nodesOfEntries_eq]

/-- A tree is one of its own nodes. -/
theorem mem_nodes_self (e : Expr α) : e ∈ e.nodes := by
  rw [nodes_eq]
  exact List.mem_cons_self

/-- A node has a stretch of the text, its children are inside of that, and each of them ends before
the next one starts. -/
structure IsLocated (text : List Char) (t : Tree) : Prop where
  stretch : t.mark.span.IsStretchOf text
  inside : ∀ c ∈ t.children, t.mark.span.start.offset ≤ c.mark.span.start.offset ∧
    c.mark.span.stop.offset ≤ t.mark.span.stop.offset
  ordered : t.children.Pairwise fun c d => c.mark.span.stop.offset ≤ d.mark.span.start.offset

end Expr

/-- Trees that stand one after the other between two offsets, with all of their nodes located. -/
structure Row (text : List Char) (start stop : Nat) (ts : List Tree) : Prop where
  located : ∀ t ∈ ts, ∀ n ∈ t.nodes, n.IsLocated text
  between : ∀ t ∈ ts, start ≤ t.mark.span.start.offset ∧ t.mark.span.stop.offset ≤ stop
  ordered : ts.Pairwise fun t u => t.mark.span.stop.offset ≤ u.mark.span.start.offset

namespace Row

variable {text : List Char} {a a' b b' : Nat} {ts us : List Tree} {t : Tree}

/-- No trees at all are a row, between any places. -/
theorem nil : Row text a b [] := ⟨nofun, nofun, .nil⟩

/-- A row stays one between places further apart. -/
theorem mono (h : Row text a b ts) (ha : a' ≤ a) (hb : b ≤ b') : Row text a' b' ts where
  located := h.located
  between t ht := ⟨Nat.le_trans ha (h.between t ht).1, Nat.le_trans (h.between t ht).2 hb⟩
  ordered := h.ordered

/-- Some trees of a row are a row. -/
theorem sublist (h : Row text a b ts) (hus : us.Sublist ts) : Row text a b us where
  located u hu := h.located u (hus.subset hu)
  between u hu := h.between u (hus.subset hu)
  ordered := h.ordered.sublist hus

/-- A row and another one behind it are a row. -/
theorem append (h : Row text a b ts) (h' : Row text b' a' us) (hb : b ≤ b') (ha : a ≤ b')
    (hb' : b ≤ a') : Row text a a' (ts ++ us) where
  located := List.forall_mem_append.2 ⟨h.located, h'.located⟩
  between := List.forall_mem_append.2
    ⟨(h.mono (Nat.le_refl _) hb').between, (h'.mono ha (Nat.le_refl _)).between⟩
  ordered := List.pairwise_append.2 ⟨h.ordered, h'.ordered, fun t ht u hu =>
    Nat.le_trans (h.between t ht).2 (Nat.le_trans hb (h'.between u hu).1)⟩

/-- The tree of a row of one is located. -/
theorem isLocated (h : Row text a b [t]) : t.IsLocated text :=
  h.located t List.mem_cons_self t t.mem_nodes_self

/-- The tree of a row of one does not start before the row. -/
theorem start_le (h : Row text a b [t]) : a ≤ t.mark.span.start.offset :=
  (h.between t List.mem_cons_self).1

/-- The tree of a row of one does not stop behind the row. -/
theorem le_stop (h : Row text a b [t]) : t.mark.span.stop.offset ≤ b :=
  (h.between t List.mem_cons_self).2

/-- The children of a node are a row inside of it. -/
theorem children (h : Row text a b [t]) :
    Row text t.mark.span.start.offset t.mark.span.stop.offset t.children where
  located c hc n hn := by
    refine h.located t List.mem_cons_self n ?_
    rw [Expr.nodes_eq]
    exact List.mem_cons_of_mem _ (List.mem_flatMap.2 ⟨c, hc, hn⟩)
  between := h.isLocated.inside
  ordered := h.isLocated.ordered

/-- A node around a row. -/
theorem node (h : Row text a b t.children) (hstretch : t.mark.span.IsStretchOf text)
    (ha : t.mark.span.start.offset ≤ a) (hb : b ≤ t.mark.span.stop.offset) :
    Row text t.mark.span.start.offset t.mark.span.stop.offset [t] where
  located := by
    refine List.forall_mem_singleton.2 fun n hn => ?_
    rw [Expr.nodes_eq, List.mem_cons, List.mem_flatMap] at hn
    rcases hn with rfl | ⟨c, hc, hn⟩
    · exact ⟨hstretch, (h.mono ha hb).between, h.ordered⟩
    · exact h.located c hc n hn
  between := List.forall_mem_singleton.2 ⟨Nat.le_refl _, Nat.le_refl _⟩
  ordered := List.pairwise_singleton _ _

end Row

end CelShell
