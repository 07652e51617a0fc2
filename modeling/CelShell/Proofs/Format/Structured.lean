import CelShell.Format.Structured
import CelShell.Proofs.Format.Json

/-!
# The structured format loses nothing

The JSON graph of an expression determines all of it (`Expr.remark_eq_of_toJson`): the fields that
may be missing are told by their names, and no two kinds of nodes have the same fields. Since a JSON
value without NaN or infinity is known from its text, so is an expression
(`Expr.structuredBy_injective`).
-/

namespace CelShell

namespace Literal

/-- A constant is known from its JSON. -/
theorem toJson_injective {a b : Literal} (h : a.toJson = b.toJson) : a = b := by
  cases a <;> cases b <;> simp_all [toJson, Int64.toInt_inj, UInt64.toNat_inj]

end Literal

/-- The macros have different names. -/
theorem Loop.name_injective {a b : Loop} (h : a.name = b.name) : a = b := by
  cases a <;> cases b <;> first | rfl | exact absurd h (by decide)

namespace Expr

variable {α β : Type} {id : α → Int} {id' : β → Int}

/-- The arguments of a call are known from its fields, whether there are some or not. -/
theorem argsField_append_inj {as bs : List Json} {u v : Json} {rest rest' : List (String × Json)}
    (h : argsField as ++ ("function", u) :: rest = argsField bs ++ ("function", v) :: rest') :
    as = bs ∧ u = v ∧ rest = rest' := by
  cases as <;> cases bs <;> simp_all [argsField]

/-- A node with its field before its number is known from both. -/
theorem nodeBefore_inj {n n' : Int} {kind : String} {body body' : Json}
    (h : nodeBefore n kind body = nodeBefore n' kind body') : n = n' ∧ body = body' := by
  simpa [nodeBefore, and_comm] using h

/-- A node with its field behind its number is known from both. -/
theorem nodeAfter_inj {n n' : Int} {kind : String} {body body' : Json}
    (h : nodeAfter n kind body = nodeAfter n' kind body') : n = n' ∧ body = body' := by
  simpa [nodeAfter] using h

mutual

/-- Two expressions with the same JSON have the same nodes with the same numbers. -/
theorem remark_eq_of_toJson (e : Expr α) (e' : Expr β) (h : e.toJson id = e'.toJson id') :
    e.remark id = e'.remark id' := by
  cases e with
  | ident m name =>
    cases e' with
    | ident m' name' =>
      obtain ⟨hid, hbody⟩ := nodeAfter_inj h
      have hname : name = name' := by simpa using hbody
      rw [remark, remark, hid, hname]
    | _ => simp [toJson, nodeBefore, nodeAfter] at h
  | literal m value =>
    cases e' with
    | literal m' value' =>
      obtain ⟨hid, hbody⟩ := nodeBefore_inj h
      rw [remark, remark, hid, Literal.toJson_injective hbody]
    | _ => simp [toJson, nodeBefore, nodeAfter] at h
  | select m operand field testOnly =>
    cases e' with
    | select m' operand' field' testOnly' =>
      obtain ⟨hid, hbody⟩ := nodeAfter_inj h
      obtain ⟨hfield, hoperand, htest⟩ :
          field = field' ∧ operand.toJson id = operand'.toJson id' ∧ testOnly = testOnly' := by
        -- The field that marks a test is there in one and missing in the other.
        cases testOnly <;> cases testOnly' <;> simp at hbody
        · exact ⟨hbody.1, hbody.2, rfl⟩
        · exact ⟨hbody.1, hbody.2, rfl⟩
      rw [remark, remark, hid, hfield, htest, remark_eq_of_toJson operand operand' hoperand]
    | _ => simp [toJson, nodeBefore, nodeAfter] at h
  | call m function args =>
    cases e' with
    | call m' function' args' =>
      obtain ⟨hid, hbody⟩ := nodeBefore_inj h
      obtain ⟨hargs, hfunction, -⟩ := argsField_append_inj (Json.object.inj hbody)
      rw [remark, remark, hid, Json.string.inj hfunction,
        remarkList_eq_of_toJsonList args args' hargs]
    | invoke m' target' function' args' =>
      -- A call on a target has one field more than one without.
      obtain ⟨-, hbody⟩ := nodeBefore_inj h
      obtain ⟨-, -, hrest⟩ := argsField_append_inj (Json.object.inj hbody)
      cases hrest
    | _ => simp [toJson, nodeBefore, nodeAfter] at h
  | invoke m target function args =>
    cases e' with
    | call m' function' args' =>
      obtain ⟨-, hbody⟩ := nodeBefore_inj h
      obtain ⟨-, -, hrest⟩ := argsField_append_inj (Json.object.inj hbody)
      cases hrest
    | invoke m' target' function' args' =>
      obtain ⟨hid, hbody⟩ := nodeBefore_inj h
      obtain ⟨hargs, hfunction, hrest⟩ := argsField_append_inj (Json.object.inj hbody)
      have htarget : target.toJson id = target'.toJson id' := by simpa using hrest
      rw [remark, remark, hid, Json.string.inj hfunction,
        remark_eq_of_toJson target target' htarget, remarkList_eq_of_toJsonList args args' hargs]
    | _ => simp [toJson, nodeBefore, nodeAfter] at h
  | list m elements =>
    cases e' with
    | list m' elements' =>
      obtain ⟨hid, hbody⟩ := nodeAfter_inj h
      have helements : toJsonList id elements = toJsonList id' elements' := by simpa using hbody
      rw [remark, remark, hid, remarkList_eq_of_toJsonList elements elements' helements]
    | _ => simp [toJson, nodeBefore, nodeAfter] at h
  | map m entries =>
    cases e' with
    | map m' entries' =>
      obtain ⟨hid, hbody⟩ := nodeAfter_inj h
      have hentries : toJsonEntries id entries = toJsonEntries id' entries' := by simpa using hbody
      rw [remark, remark, hid, remarkEntries_eq_of_toJsonEntries entries entries' hentries]
    | _ => simp [toJson, nodeBefore, nodeAfter] at h
  | comprehension m loop var range body =>
    cases e' with
    | comprehension m' loop' var' range' body' =>
      obtain ⟨hid, hbody⟩ := nodeBefore_inj h
      obtain ⟨hrange, hvar, hstep, hloop⟩ : range.toJson id = range'.toJson id' ∧ var = var' ∧
          body.toJson id = body'.toJson id' ∧ loop.name = loop'.name := by simpa using hbody
      rw [remark, remark, hid, hvar, Loop.name_injective hloop,
        remark_eq_of_toJson range range' hrange, remark_eq_of_toJson body body' hstep]
    | _ => simp [toJson, nodeBefore, nodeAfter] at h

/-- Expressions with the same JSON have the same nodes with the same numbers. -/
theorem remarkList_eq_of_toJsonList (es : List (Expr α)) (es' : List (Expr β))
    (h : toJsonList id es = toJsonList id' es') : remarkList id es = remarkList id' es' := by
  cases es with
  | nil =>
    cases es' with
    | nil => rfl
    | cons e' rest' => cases h
  | cons e rest =>
    cases es' with
    | nil => cases h
    | cons e' rest' =>
      obtain ⟨he, hrest⟩ := List.cons.inj h
      rw [remarkList, remarkList, remark_eq_of_toJson e e' he,
        remarkList_eq_of_toJsonList rest rest' hrest]

/-- Entries with the same JSON have the same nodes with the same numbers. -/
theorem remarkEntries_eq_of_toJsonEntries (es : List (Expr α × Expr α))
    (es' : List (Expr β × Expr β)) (h : toJsonEntries id es = toJsonEntries id' es') :
    remarkEntries id es = remarkEntries id' es' := by
  cases es with
  | nil =>
    cases es' with
    | nil => rfl
    | cons e' rest' => cases h
  | cons e rest =>
    obtain ⟨k, v⟩ := e
    cases es' with
    | nil => cases h
    | cons e' rest' =>
      obtain ⟨k', v'⟩ := e'
      obtain ⟨hentry, hrest⟩ := List.cons.inj h
      obtain ⟨hk, hv⟩ : k.toJson id = k'.toJson id' ∧ v.toJson id = v'.toJson id' := by
        simpa using hentry
      rw [remarkEntries, remarkEntries, remark_eq_of_toJson k k' hk, remark_eq_of_toJson v v' hv,
        remarkEntries_eq_of_toJsonEntries rest rest' hrest]

end

/-- A node that is no double, or a finite one. -/
def HasFiniteValue : Expr α → Prop
  | literal _ (.double d) => d.isFinite = true
  | _ => True

/-- The JSON of a constant that is no double, or a finite one, holds finite numbers only. -/
theorem isFinite_toJson_literal {value : Literal}
    (h : ∀ d, value = .double d → d.isFinite = true) : value.toJson.IsFinite := by
  cases value with
  | double d => exact ⟨h d rfl, trivial⟩
  | _ => exact ⟨trivial, trivial⟩

/-- Arguments with finite numbers only leave the fields behind them so. -/
theorem haveFinite_argsField {args : List Json} {rest : List (String × Json)}
    (hargs : Json.AreFinite args) (hrest : Json.HaveFinite rest) :
    Json.HaveFinite (argsField args ++ rest) := by
  cases args with
  | nil => exact hrest
  | cons arg args => exact ⟨hargs, hrest⟩

mutual

/-- The JSON of an expression whose doubles are finite has finite doubles only. -/
theorem isFinite_toJson : (e : Expr α) → (∀ n ∈ e.nodes, n.HasFiniteValue) →
    (e.toJson id).IsFinite
  | ident _ _, _ => ⟨trivial, ⟨trivial, trivial⟩, trivial⟩
  | literal m value, h =>
    have hvalue : (literal m value).HasFiniteValue := h (literal m value) List.mem_cons_self
    ⟨isFinite_toJson_literal fun d hd => by rw [hd] at hvalue; exact hvalue, trivial, trivial⟩
  | select _ operand field testOnly, h => by
    obtain ⟨-, hoperand⟩ := List.forall_mem_cons.1 h
    cases testOnly
    · exact ⟨trivial, ⟨trivial, isFinite_toJson operand hoperand, trivial⟩, trivial⟩
    · exact ⟨trivial, ⟨trivial, isFinite_toJson operand hoperand, trivial, trivial⟩, trivial⟩
  | call _ function args, h => by
    obtain ⟨-, hargs⟩ := List.forall_mem_cons.1 h
    exact ⟨haveFinite_argsField (areFinite_toJsonList args hargs) ⟨trivial, trivial⟩, trivial,
      trivial⟩
  | invoke _ target function args, h => by
    obtain ⟨-, hparts⟩ := List.forall_mem_cons.1 h
    obtain ⟨htarget, hargs⟩ := List.forall_mem_append.1 hparts
    exact ⟨haveFinite_argsField (areFinite_toJsonList args hargs)
      ⟨trivial, isFinite_toJson target htarget, trivial⟩, trivial, trivial⟩
  | list _ elements, h => by
    obtain ⟨-, helements⟩ := List.forall_mem_cons.1 h
    exact ⟨trivial, ⟨areFinite_toJsonList elements helements, trivial⟩, trivial⟩
  | map _ entries, h => by
    obtain ⟨-, hentries⟩ := List.forall_mem_cons.1 h
    exact ⟨trivial, ⟨areFinite_toJsonEntries entries hentries, trivial⟩, trivial⟩
  | comprehension _ loop var range body, h => by
    obtain ⟨-, hparts⟩ := List.forall_mem_cons.1 h
    obtain ⟨hrange, hbody⟩ := List.forall_mem_append.1 hparts
    exact ⟨⟨isFinite_toJson range hrange, trivial, isFinite_toJson body hbody, trivial, trivial⟩,
      trivial, trivial⟩

/-- The JSON of expressions with finite constants holds finite numbers only. -/
theorem areFinite_toJsonList : (es : List (Expr α)) → (∀ n ∈ nodesOfList es, n.HasFiniteValue) →
    Json.AreFinite (toJsonList id es)
  | [], _ => trivial
  | e :: rest, h =>
    have hparts := List.forall_mem_append.1 h
    ⟨isFinite_toJson e hparts.1, areFinite_toJsonList rest hparts.2⟩

/-- The JSON of entries with finite constants holds finite numbers only. -/
theorem areFinite_toJsonEntries : (es : List (Expr α × Expr α)) →
    (∀ n ∈ nodesOfEntries es, n.HasFiniteValue) → Json.AreFinite (toJsonEntries id es)
  | [], _ => trivial
  | (k, v) :: rest, h =>
    have hparts := List.forall_mem_append.1 h
    have hentry := List.forall_mem_append.1 hparts.1
    ⟨⟨isFinite_toJson k hentry.1, isFinite_toJson v hentry.2, trivial⟩,
      areFinite_toJsonEntries rest hparts.2⟩

end

/-- The structured format loses nothing: two expressions whose doubles are finite and whose
structured texts are the same are the same in every node, with the same numbers, whatever the
indent. -/
theorem structuredBy_injective (indent : Nat) (e : Expr α) (e' : Expr β)
    (he : ∀ n ∈ e.nodes, n.HasFiniteValue) (he' : ∀ n ∈ e'.nodes, n.HasFiniteValue)
    (h : e.structuredBy id indent = e'.structuredBy id' indent) : e.remark id = e'.remark id' :=
  remark_eq_of_toJson e e' (Json.eq_of_text (isFinite_toJson e he) (isFinite_toJson e' he') h)

/-- A call on a target, and the same nodes with their numbers alone for marks. -/
theorem structuredBy_injective_invoke :
    let e : Tree := .invoke ⟨3, .dummy⟩ (.literal ⟨1, .dummy⟩ (.double (.zero true))) "f"
      [.literal ⟨2, .dummy⟩ (.string "]\n\"")]
    let e' : Expr Int := .invoke 3 (.literal 1 (.double (.zero true))) "f"
      [.literal 2 (.string "]\n\"")]
    (∀ n ∈ e.nodes, n.HasFiniteValue) ∧ (∀ n ∈ e'.nodes, n.HasFiniteValue) ∧
      e.structuredBy (fun m => m.id) 1 = e'.structuredBy (fun n => n) 1 ∧
      e.remark (fun m => (m.id : Int)) = e'.remark (fun n => n) := by
  intro e e'
  have he : ∀ n ∈ e.nodes, n.HasFiniteValue := by
    simp [e, nodes, nodesOfList, HasFiniteValue, Double.zero, Double.isFinite,
      Binary64.infinityCode, Binary64.binade]
  have he' : ∀ n ∈ e'.nodes, n.HasFiniteValue := by
    simp [e', nodes, nodesOfList, HasFiniteValue, Double.zero, Double.isFinite,
      Binary64.infinityCode, Binary64.binade]
  -- The marks differ in all but their numbers, and those are what is shown.
  have htext : e.structuredBy (fun m => m.id) 1 = e'.structuredBy (fun n => n) 1 := rfl
  exact ⟨he, he', htext, structuredBy_injective 1 e e' he he' htext⟩

end Expr

end CelShell
