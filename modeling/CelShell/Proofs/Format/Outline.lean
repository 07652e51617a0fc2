import CelShell.Expr.Parser
import CelShell.Format.Outline
import CelShell.Proofs.Expr.Location
import CelShell.Proofs.Expr.Renaming
import CelShell.Proofs.Format.Number

/-!
# The lines of an outline

Where the nodes of an expression stand in its outline. A place in an expression is a `Context`. If
the place is shown, the outline of the expression is what comes before the place, the outline of
what stands there, and what comes after it (`Context.outlineAt_fill`), so the line of a node is
counted by the line breaks before its place. An outline has a line break for each node that it shows
below its head (`Expr.lineBreaks_outlineAt`).

The field of a selection is written behind the outline of its operand. It therefore stands below the
head of the operand by as many lines as the operand shows below its head, and only an operand that
shows nothing below its head has its field beside it (`Context.field_line`).
-/

namespace CelShell

/-- How many lines end in a text. -/
def lineBreaks (s : String) : Nat := s.toList.count '\n'

/-- Texts in a row have the line breaks of both. -/
theorem lineBreaks_append (s t : String) : lineBreaks (s ++ t) = lineBreaks s + lineBreaks t := by
  rw [lineBreaks, String.toList_append, List.count_append]
  rfl

/-- A text without a line break. -/
def IsOneLine (s : String) : Prop := '\n' ∉ s.toList

/-- Whether a text is on one line can be decided. -/
instance (s : String) : Decidable (IsOneLine s) := inferInstanceAs (Decidable ('\n' ∉ s.toList))

/-- Texts in a row are on one line if both are. -/
theorem isOneLine_append {s t : String} : IsOneLine (s ++ t) ↔ IsOneLine s ∧ IsOneLine t := by
  rw [IsOneLine, String.toList_append, List.mem_append, not_or]
  rfl

/-- No line breaks in a number. -/
theorem isOneLine_of_isNumberChar {s : String}
    (h : ∀ c ∈ s.toList, Number.isNumberChar c = true) : IsOneLine s :=
  fun hmem => absurd (h _ hmem) (by decide)

/-- A label of one line. -/
theorem IsOneLine.label {opening s : String} (h : IsOneLine s) (hopening : IsOneLine opening) :
    IsOneLine (opening ++ s ++ ")") :=
  isOneLine_append.2 ⟨isOneLine_append.2 ⟨hopening, h⟩, by decide +kernel⟩

/-- A text on one line has no line break. -/
theorem IsOneLine.lineBreaks_eq {s : String} (h : IsOneLine s) : lineBreaks s = 0 :=
  List.count_eq_zero.2 h

/-! ## Labels -/

namespace Literal

/-- The name of the type of a constant is on one line. -/
theorem isOneLine_typeTag (value : Literal) : IsOneLine value.typeTag := by
  have hmem : value.typeTag ∈ ["unknown", "bool", "int64", "uint64", "double", "string"] := by
    cases value <;> simp [typeTag]
  have hall : ∀ tag ∈ ["unknown", "bool", "int64", "uint64", "double", "string"],
      IsOneLine tag := by decide +kernel
  exact hall _ hmem

/-- A number or a word has no line break; a string may have some. -/
theorem isOneLine_valueText {value : Literal} (h : ∀ s, value = .string s → IsOneLine s) :
    IsOneLine value.valueText := by
  cases value with
  | null => decide +kernel
  | bool b => cases b <;> decide +kernel
  | int n => exact isOneLine_of_isNumberChar (Json.isNumberChar_integerText n.toInt)
  | uint n =>
    have hdigits := (Number.isNumeral_toDigits n.toNat).isNumberChar
    refine isOneLine_of_isNumberChar ?_
    rwa [valueText, Number.uint64Text, String.toList_ofList]
  | double d =>
    -- A double is a number or one of three words.
    by_cases hfinite : d.isFinite = true
    · exact isOneLine_of_isNumberChar (d.isNumberChar_text (List.forall_mem_nil _) hfinite)
    · rw [valueText]
      rcases Double.text_of_not_isFinite .plain hfinite with h | h | h <;> rw [h] <;> decide +kernel
  | string s => exact h s rfl

end Literal

namespace Expr

variable {α : Type}

/-- What a node is labelled with has no line break. -/
def HasOneLineLabel : Expr α → Prop
  | ident _ name => IsOneLine name
  | literal _ (.string s) => IsOneLine s
  | select _ _ field _ => IsOneLine field
  | call _ function _ | invoke _ _ function _ => IsOneLine function
  | comprehension _ _ var _ _ => IsOneLine var
  | literal _ _ | list _ _ | map _ _ => True

mutual

/-- How many lines an outline has below its first one. -/
def linesBelow : Expr α → Nat
  | ident _ _ | literal _ _ => 0
  | select _ operand _ _ => operand.linesBelow
  | call _ _ args | invoke _ _ _ args => linesOfList args
  | list _ elements => linesOfList elements
  | map _ entries => linesOfEntries entries
  | comprehension _ _ _ range body => 1 + range.linesBelow + (1 + body.linesBelow)

/-- How many lines some outlines have. -/
def linesOfList : List (Expr α) → Nat
  | [] => 0
  | e :: rest => 1 + e.linesBelow + linesOfList rest

/-- How many lines the outlines of some entries have, with a line for each entry. -/
def linesOfEntries : List (Expr α × Expr α) → Nat
  | [] => 0
  | (k, v) :: rest => 1 + (1 + k.linesBelow) + (1 + v.linesBelow) + linesOfEntries rest

end

/-- The start of a line has one line break. -/
theorem lineBreaks_outlineStart (depth : Nat) : lineBreaks (outlineStart depth) = 1 := by
  unfold lineBreaks outlineStart
  simp [List.count_replicate]

/-! ### The outline of each construct -/

section

variable (depth : Nat) (m : α) (name function field var : String) (value : Literal)
  (operand target range body : Expr α) (args : List (Expr α)) (entries : List (Expr α × Expr α))
  (testOnly : Bool) (loop : Loop)

/-- The label of a call. -/
@[irreducible] def callLabel : String := "(call: " ++ function ++ ")"

/-- The label of a comprehension. -/
@[irreducible] def loopLabel : String := "(comprehension: " ++ loop.name ++ " " ++ var ++ ")"

/-- The outline of a name. -/
theorem outlineAt_ident : (ident m name).outlineAt depth = "(ident: " ++ name ++ ")" := rfl

/-- The outline of a constant, with its type. -/
theorem outlineAt_literal :
    (literal m value).outlineAt depth =
      "(const<" ++ value.typeTag ++ ">: " ++ value.valueText ++ ")" := rfl

/-- The outline of a selection is that of its operand, with the field behind it. -/
theorem outlineAt_select :
    (select m operand field testOnly).outlineAt depth = operand.outlineAt depth ++ "." ++ field :=
  rfl

/-- The outline of a call, with the arguments below it. -/
theorem outlineAt_call :
    (call m function args).outlineAt depth =
      callLabel function ++ outlineList (depth + 1) args := by
  unfold callLabel
  rfl

/-- The outline of a call on a target. The target is not shown. -/
theorem outlineAt_invoke :
    (invoke m target function args).outlineAt depth =
      callLabel function ++ outlineList (depth + 1) args := by
  unfold callLabel
  rfl

/-- The outline of a list, with the elements below it. -/
theorem outlineAt_list :
    (list m args).outlineAt depth = "(list)" ++ outlineList (depth + 1) args := rfl

/-- The outline of a map, with the entries below it. -/
theorem outlineAt_map :
    (map m entries).outlineAt depth = "(map)" ++ outlineEntries (depth + 1) entries := rfl

/-- The outline of a loop, with its range and its body below it. -/
theorem outlineAt_comprehension :
    (comprehension m loop var range body).outlineAt depth =
      loopLabel var loop ++ outlineStart (depth + 1) ++ range.outlineAt (depth + 1)
        ++ outlineStart (depth + 1) ++ body.outlineAt (depth + 1) := by
  unfold loopLabel
  rfl

/-- The label of a call is on one line if the name of the function is. -/
theorem isOneLine_callLabel (h : IsOneLine function) : IsOneLine (callLabel function) := by
  unfold callLabel
  exact h.label (by decide +kernel)

/-- The label of a loop is on one line if the name of the variable is. -/
theorem isOneLine_loopLabel (h : IsOneLine var) : IsOneLine (loopLabel var loop) := by
  unfold loopLabel
  exact h.label (by cases loop <;> decide +kernel)

end

mutual

/-- An outline has a line break for each line below its first one. -/
theorem lineBreaks_outlineAt (depth : Nat) : (e : Expr α) →
    (∀ n ∈ e.nodes, n.HasOneLineLabel) → lineBreaks (e.outlineAt depth) = e.linesBelow
  | ident m name, h => by
    have hname : IsOneLine name := h (ident m name) List.mem_cons_self
    rw [outlineAt_ident, (hname.label (by decide +kernel)).lineBreaks_eq, linesBelow]
  | literal m value, h => by
    have hlabel : (literal m value).HasOneLineLabel := h (literal m value) List.mem_cons_self
    have hvalue : IsOneLine value.valueText :=
      Literal.isOneLine_valueText fun s hs => by rw [hs] at hlabel; exact hlabel
    have htag : IsOneLine ("(const<" ++ value.typeTag ++ ">: ") := isOneLine_append.2
      ⟨isOneLine_append.2 ⟨by decide +kernel, value.isOneLine_typeTag⟩, by decide +kernel⟩
    rw [outlineAt_literal, (hvalue.label htag).lineBreaks_eq, linesBelow]
  | select _ operand field _, h => by
    obtain ⟨hfield, hoperand⟩ := List.forall_mem_cons.1 h
    have hpoint : IsOneLine ("." ++ field) := isOneLine_append.2 ⟨by decide +kernel, hfield⟩
    rw [outlineAt_select, String.append_assoc, lineBreaks_append, hpoint.lineBreaks_eq,
      lineBreaks_outlineAt depth operand hoperand, linesBelow, Nat.add_zero]
  | call _ function args, h => by
    obtain ⟨hfunction, hargs⟩ := List.forall_mem_cons.1 h
    rw [outlineAt_call, lineBreaks_append, (isOneLine_callLabel function hfunction).lineBreaks_eq,
      lineBreaks_outlineList (depth + 1) args hargs, linesBelow, Nat.zero_add]
  | invoke _ target function args, h => by
    obtain ⟨hfunction, hrest⟩ := List.forall_mem_cons.1 h
    -- The target of a call is not shown, so it has no lines.
    obtain ⟨-, hargs⟩ := List.forall_mem_append.1 hrest
    rw [outlineAt_invoke, lineBreaks_append, (isOneLine_callLabel function hfunction).lineBreaks_eq,
      lineBreaks_outlineList (depth + 1) args hargs, linesBelow, Nat.zero_add]
  | list _ elements, h => by
    obtain ⟨-, helements⟩ := List.forall_mem_cons.1 h
    have hlabel : IsOneLine "(list)" := by decide +kernel
    rw [outlineAt_list, lineBreaks_append, hlabel.lineBreaks_eq,
      lineBreaks_outlineList (depth + 1) elements helements, linesBelow, Nat.zero_add]
  | map _ entries, h => by
    obtain ⟨-, hentries⟩ := List.forall_mem_cons.1 h
    have hlabel : IsOneLine "(map)" := by decide +kernel
    rw [outlineAt_map, lineBreaks_append, hlabel.lineBreaks_eq,
      lineBreaks_outlineEntries (depth + 1) entries hentries, linesBelow, Nat.zero_add]
  | comprehension _ loop var range body, h => by
    obtain ⟨hvar, hparts⟩ := List.forall_mem_cons.1 h
    obtain ⟨hrange, hbody⟩ := List.forall_mem_append.1 hparts
    simp only [outlineAt_comprehension, lineBreaks_append,
      (isOneLine_loopLabel var loop hvar).lineBreaks_eq, lineBreaks_outlineStart,
      lineBreaks_outlineAt (depth + 1) range hrange, lineBreaks_outlineAt (depth + 1) body hbody,
      linesBelow]
    omega

/-- Expressions whose labels are on one line each take the lines that are counted. -/
theorem lineBreaks_outlineList (depth : Nat) : (es : List (Expr α)) →
    (∀ n ∈ nodesOfList es, n.HasOneLineLabel) →
      lineBreaks (outlineList depth es) = linesOfList es
  | [], _ => rfl
  | e :: rest, h => by
    obtain ⟨he, hrest⟩ := List.forall_mem_append.1 h
    rw [outlineList, lineBreaks_append, lineBreaks_append, lineBreaks_outlineStart,
      lineBreaks_outlineAt depth e he, lineBreaks_outlineList depth rest hrest, linesOfList]

/-- Entries whose labels are on one line each take the lines that are counted. -/
theorem lineBreaks_outlineEntries (depth : Nat) : (es : List (Expr α × Expr α)) →
    (∀ n ∈ nodesOfEntries es, n.HasOneLineLabel) →
      lineBreaks (outlineEntries depth es) = linesOfEntries es
  | [], _ => rfl
  | (k, v) :: rest, h => by
    obtain ⟨hkv, hrest⟩ := List.forall_mem_append.1 h
    obtain ⟨hk, hv⟩ := List.forall_mem_append.1 hkv
    have hentry : lineBreaks "(entry)" = 0 := rfl
    simp only [outlineEntries, lineBreaks_append, lineBreaks_outlineStart, hentry,
      lineBreaks_outlineAt (depth + 1) k hk, lineBreaks_outlineAt (depth + 1) v hv,
      lineBreaks_outlineEntries depth rest hrest, linesOfEntries]
    omega

end

/-- Whether an outline shows a node below the line on which it starts. -/
def ShowsBelow : Expr α → Prop
  | ident _ _ | literal _ _ => False
  | select _ operand _ _ => operand.ShowsBelow
  | call _ _ args | invoke _ _ _ args => args ≠ []
  | list _ elements => elements ≠ []
  | map _ entries => entries ≠ []
  | comprehension _ _ _ _ _ => True

/-- Expressions take no line if there are none of them, and only then. -/
theorem linesOfList_eq_zero_iff (es : List (Expr α)) : linesOfList es = 0 ↔ es = [] := by
  cases es with
  | nil => exact iff_of_true rfl rfl
  | cons e rest => simp [linesOfList]

/-- Entries take no line if there are none of them, and only then. -/
theorem linesOfEntries_eq_zero_iff (es : List (Expr α × Expr α)) :
    linesOfEntries es = 0 ↔ es = [] := by
  cases es with
  | nil => exact iff_of_true rfl rfl
  | cons e rest => simp [linesOfEntries]

/-- An outline is of one line if nothing is shown below that. -/
theorem linesBelow_eq_zero_iff (e : Expr α) : e.linesBelow = 0 ↔ ¬ e.ShowsBelow := by
  cases e with
  | ident _ _ | literal _ _ => exact iff_of_true rfl not_false
  | select _ operand _ _ => exact linesBelow_eq_zero_iff operand
  | call _ _ args => exact (linesOfList_eq_zero_iff args).trans not_not.symm
  | invoke _ _ _ args => exact (linesOfList_eq_zero_iff args).trans not_not.symm
  | list _ elements => exact (linesOfList_eq_zero_iff elements).trans not_not.symm
  | map _ entries => exact (linesOfEntries_eq_zero_iff entries).trans not_not.symm
  | comprehension _ _ _ range body =>
    exact iff_of_false (by rw [linesBelow]; omega) (not_not.2 trivial)

/-! ## Places in an outline -/

/-- Expressions in a row have their outlines in a row. -/
theorem outlineList_append (depth : Nat) (before after : List (Expr α)) :
    outlineList depth (before ++ after) = outlineList depth before ++ outlineList depth after := by
  induction before with
  | nil => exact (String.empty_append).symm
  | cons e rest ih => simp only [List.cons_append, outlineList, ih, String.append_assoc]

/-- Entries in a row have their outlines in a row. -/
theorem outlineEntries_append (depth : Nat) (before after : List (Expr α × Expr α)) :
    outlineEntries depth (before ++ after) =
      outlineEntries depth before ++ outlineEntries depth after := by
  induction before with
  | nil => exact (String.empty_append).symm
  | cons e rest ih => simp only [List.cons_append, outlineEntries, ih, String.append_assoc]

namespace Context

/-- Whether an outline shows what stands in a place. The target of a call is not shown. -/
def IsShown : Context α → Prop
  | here => True
  | target _ _ _ _ => False
  | operand _ c _ _ | argument _ _ _ c _ | parameter _ _ _ _ c _ | element _ _ c _ | key _ _ c _ _
  | value _ _ _ c _ | range _ _ _ c _ | body _ _ _ _ c => c.IsShown

/-- The depth of a place in an outline that starts at a depth. -/
def outlineDepth (depth : Nat) : Context α → Nat
  | here => depth
  | operand _ c _ _ | target _ c _ _ => c.outlineDepth depth
  | argument _ _ _ c _ | parameter _ _ _ _ c _ | element _ _ c _ | range _ _ _ c _
  | body _ _ _ _ c => c.outlineDepth (depth + 1)
  | key _ _ c _ _ | value _ _ _ c _ => c.outlineDepth (depth + 2)

/-- What an outline has before a place. -/
def outlineBefore (depth : Nat) : Context α → String
  | here | target _ _ _ _ => ""
  | operand _ c _ _ => c.outlineBefore depth
  | argument _ function before c _ | parameter _ _ function before c _ =>
    callLabel function ++ outlineList (depth + 1) before ++ outlineStart (depth + 1)
      ++ c.outlineBefore (depth + 1)
  | element _ before c _ =>
    "(list)" ++ outlineList (depth + 1) before ++ outlineStart (depth + 1)
      ++ c.outlineBefore (depth + 1)
  | key _ before c _ _ =>
    "(map)" ++ outlineEntries (depth + 1) before ++ outlineStart (depth + 1) ++ "(entry)"
      ++ outlineStart (depth + 2) ++ c.outlineBefore (depth + 2)
  | value _ before k c _ =>
    "(map)" ++ outlineEntries (depth + 1) before ++ outlineStart (depth + 1) ++ "(entry)"
      ++ outlineStart (depth + 2) ++ k.outlineAt (depth + 2) ++ outlineStart (depth + 2)
      ++ c.outlineBefore (depth + 2)
  | range _ loop var c _ =>
    loopLabel var loop ++ outlineStart (depth + 1)
      ++ c.outlineBefore (depth + 1)
  | body _ loop var r c =>
    loopLabel var loop ++ outlineStart (depth + 1)
      ++ r.outlineAt (depth + 1) ++ outlineStart (depth + 1) ++ c.outlineBefore (depth + 1)

/-- What an outline has behind a place. -/
def outlineAfter (depth : Nat) : Context α → String
  | here | target _ _ _ _ => ""
  | operand _ c field _ => c.outlineAfter depth ++ "." ++ field
  | argument _ _ _ c after | parameter _ _ _ _ c after | element _ _ c after =>
    c.outlineAfter (depth + 1) ++ outlineList (depth + 1) after
  | key _ _ c v after =>
    c.outlineAfter (depth + 2) ++ outlineStart (depth + 2) ++ v.outlineAt (depth + 2)
      ++ outlineEntries (depth + 1) after
  | value _ _ _ c after => c.outlineAfter (depth + 2) ++ outlineEntries (depth + 1) after
  | range _ _ _ c b =>
    c.outlineAfter (depth + 1) ++ outlineStart (depth + 1) ++ b.outlineAt (depth + 1)
  | body _ _ _ _ c => c.outlineAfter (depth + 1)

/-- The outline of an expression has that of a part in the place where the part is shown. -/
theorem outlineAt_fill (e : Expr α) (c : Context α) (hshown : c.IsShown) (depth : Nat) :
    (c.fill e).outlineAt depth =
      c.outlineBefore depth ++ e.outlineAt (c.outlineDepth depth) ++ c.outlineAfter depth := by
  induction c generalizing depth with
  | here =>
    simp only [fill, outlineBefore, outlineDepth, outlineAfter, String.empty_append,
      String.append_empty]
  -- The target of a call is not shown.
  | target => exact absurd hshown not_false
  | operand m c field testOnly ih =>
    simp only [fill, outlineAt_select, outlineBefore, outlineDepth, outlineAfter, ih hshown,
      String.append_assoc]
  | argument m function before c after ih =>
    simp only [fill, outlineAt_call, outlineList_append, outlineList, outlineBefore, outlineDepth,
      outlineAfter, ih hshown, String.append_assoc]
  | parameter m receiver function before c after ih =>
    simp only [fill, outlineAt_invoke, outlineList_append, outlineList, outlineBefore,
      outlineDepth, outlineAfter, ih hshown, String.append_assoc]
  | element m before c after ih =>
    simp only [fill, outlineAt_list, outlineList_append, outlineList, outlineBefore, outlineDepth,
      outlineAfter, ih hshown, String.append_assoc]
  | key m before c v after ih =>
    simp only [fill, outlineAt_map, outlineEntries_append, outlineEntries, outlineBefore,
      outlineDepth, outlineAfter, ih hshown, String.append_assoc]
  | value m before k c after ih =>
    simp only [fill, outlineAt_map, outlineEntries_append, outlineEntries, outlineBefore,
      outlineDepth, outlineAfter, ih hshown, String.append_assoc]
  | range m loop var c b ih =>
    simp only [fill, outlineAt_comprehension, outlineBefore, outlineDepth, outlineAfter, ih hshown,
      String.append_assoc]
  | body m loop var r c ih =>
    simp only [fill, outlineAt_comprehension, outlineBefore, outlineDepth, outlineAfter, ih hshown,
      String.append_assoc]

/-- Where the field of a selection stands in an outline. It follows the outline of the operand, so
from the line with the head of the operand it is as many lines down as the operand shows below that.
If labels have no line breaks, field and head are on one line exactly if the operand shows nothing
below its head. -/
theorem field_line (c : Context α) (m : α) (operand : Expr α) (field : String) (testOnly : Bool)
    (hshown : c.IsShown) (hlabels : ∀ n ∈ operand.nodes, n.HasOneLineLabel) :
    let head := c.outlineBefore 0
    let tail := operand.outlineAt (c.outlineDepth 0)
    (c.fill (.select m operand field testOnly)).outline =
        head ++ tail ++ ("." ++ field) ++ c.outlineAfter 0 ∧
      lineBreaks (head ++ tail) = lineBreaks head + operand.linesBelow ∧
      (lineBreaks (head ++ tail) = lineBreaks head ↔ ¬ operand.ShowsBelow) := by
  intro head tail
  have hlines : lineBreaks (head ++ tail) = lineBreaks head + operand.linesBelow := by
    rw [lineBreaks_append, lineBreaks_outlineAt _ operand hlabels]
  refine ⟨?_, hlines, ?_⟩
  · rw [outline, outlineAt_fill _ c hshown, outlineAt_select]
    simp only [head, tail, String.append_assoc]
  · rw [hlines, ← linesBelow_eq_zero_iff]
    exact Nat.add_eq_left

end Context

/-- A call of a name with a name has labels on one line, if both names are. -/
theorem hasOneLineLabel_call {m n : α} {function name : String} (hfunction : IsOneLine function)
    (hname : IsOneLine name) :
    ∀ e ∈ (call m function [ident n name]).nodes, e.HasOneLineLabel := by
  simpa [nodes, nodesOfList, HasOneLineLabel] using ⟨hfunction, hname⟩

/-- In `[a, f(x).b]` the operand of the selection is a call with an argument, so the field is one
line below the name of the function. -/
theorem Context.field_line_in_list :
    let c : Context Unit := .element () [.ident () "a"] .here []
    let operand : Expr Unit := .call () "f" [.ident () "x"]
    (c.fill (.select () operand "b" false)).outline =
        "(list)\n\t(ident: a)\n\t(call: f)\n\t\t(ident: x).b" ∧
      lineBreaks (c.outlineBefore 0) = 2 ∧
      lineBreaks (c.outlineBefore 0 ++ operand.outlineAt (c.outlineDepth 0)) = 3 := by
  intro c operand
  obtain ⟨houtline, hlines, -⟩ := field_line c () operand "b" false trivial
    (hasOneLineLabel_call (by decide +kernel) (by decide +kernel))
  refine ⟨houtline.trans (by decide +kernel), by decide +kernel, hlines.trans ?_⟩
  decide +kernel

/-- A selection from a call of a name is known but for its marks. -/
theorem exists_marks_of_same {t : Expr α} {function name field : String}
    (h : t.same (select () (call () function [ident () name]) field false) = true) :
    ∃ m n a, t = select m (call n function [ident a name]) field false := by
  cases t with
  | select m operand field' testOnly =>
    rw [same, Bool.and_eq_true, Bool.and_eq_true, beq_iff_eq, beq_iff_eq] at h
    obtain ⟨⟨hoperand, rfl⟩, rfl⟩ := h
    cases operand with
    | call n function' args =>
      rw [same, Bool.and_eq_true, beq_iff_eq] at hoperand
      obtain ⟨rfl, hargs⟩ := hoperand
      cases args with
      | nil => cases hargs
      | cons e rest =>
        rw [sameList, Bool.and_eq_true] at hargs
        obtain ⟨he, hrest⟩ := hargs
        cases rest with
        | cons => cases hrest
        | nil =>
          cases e with
          | ident a name' =>
            obtain rfl := beq_iff_eq.1 he
            exact ⟨m, n, a, rfl⟩
          | _ => cases he
    | _ => cases hoperand
  | _ => cases h

/-- The outline of `f(x).b` shows the field on the line of the argument, as that of `f(x.b)` does,
and not on the line of the call, which is what the field is selected from. -/
theorem field_beside_argument :
    ∃ m n a, let operand : Tree := .call n "f" [.ident a "x"]
      parse "f(x).b" true = .ok (.select m operand "b" false) ∧
      (∀ e ∈ operand.nodes, e.HasOneLineLabel) ∧
      (select m operand "b" false).outline = operand.outline ++ ".b" ∧
      lineBreaks operand.outline = 1 ∧
      (select m operand "b" false).outline =
        (call n "f" [.select m (.ident a "x") "b" false]).outline := by
  have hshape : (parse "f(x).b" true).toOption.any
      (·.same (select () (call () "f" [ident () "x"]) "b" false)) = true := by decide +kernel
  cases h : parse "f(x).b" true with
  | error e => rw [h] at hshape; cases hshape
  | ok t =>
    rw [h] at hshape
    obtain ⟨m, n, a, rfl⟩ := exists_marks_of_same hshape
    -- The labels have no line breaks, so the count of lines applies.
    have hlabels := hasOneLineLabel_call (m := n) (n := a)
      (by decide +kernel : IsOneLine "f") (by decide +kernel : IsOneLine "x")
    exact ⟨m, n, a, rfl, hlabels, rfl, lineBreaks_outlineAt 0 _ hlabels, rfl⟩

end Expr

end CelShell
