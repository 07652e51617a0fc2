import CelShell.Proofs.Grammar.Run

/-!
# What parsers keep

`Parser.Meets E p c Q` says of the run of a parser from a cursor that it ends in a value and a
cursor for which `Q` holds, or in an error and a cursor for which `E` does. The rules follow the
steps that parsers are made of, so what is claimed of a parser is shown along its text.
-/

namespace CelShell

namespace Parser

variable {α β : Type} {E : Option SyntaxError → Cursor → Prop} {p : Parser α} {c c' : Cursor}
  {Q Q' : α → Cursor → Prop} {R : β → Cursor → Prop}

/-- The run of a parser from a cursor ends well or badly as two conditions say. -/
def Meets (E : Option SyntaxError → Cursor → Prop) (p : Parser α) (c : Cursor)
    (Q : α → Cursor → Prop) : Prop :=
  match p c with
  | .ok a c' => Q a c'
  | .error e c' => E e c'

/-- A run that succeeds meets the condition on success. -/
theorem Meets.of_ok (h : Meets E p c Q) {a : α} (hp : p c = .ok a c') : Q a c' := by
  rw [Meets, hp] at h
  exact h

/-- A run that fails meets the condition on failure. -/
theorem Meets.of_error (h : Meets E p c Q) {e : Option SyntaxError} (hp : p c = .error e c') :
    E e c' := by
  rw [Meets, hp] at h
  exact h

/-- Runs with the same result meet the same conditions. -/
theorem Meets.congr {p' : Parser α} (h : Meets E p' c' Q) (hp : p c = p' c') : Meets E p c Q := by
  rw [Meets, hp]
  exact h

/-- What a run meets may be weaker. -/
theorem Meets.mono (h : Meets E p c Q) (hQ : ∀ a c', Q a c' → Q' a c') : Meets E p c Q' := by
  unfold Meets at h ⊢
  cases hp : p c with
  | ok a c' => rw [hp] at h; exact hQ a c' h
  | error e c' => rw [hp] at h; exact h

/-- One parser after the other. -/
theorem Meets.bind {f : α → Parser β} (h : Meets E p c Q)
    (hf : ∀ a c', Q a c' → Meets E (f a) c' R) : Meets E (p >>= f) c R := by
  unfold Meets at h ⊢
  rw [run_bind]
  cases hp : p c with
  | ok a c' => rw [hp] at h; exact hf a c' h
  | error e c' => rw [hp] at h; exact h

/-- A value is given where the cursor is. -/
theorem meets_pure {a : α} (h : Q a c) : Meets E (pure a) c Q := h

/-- An error is raised where the cursor is. -/
theorem meets_throw {e : Option SyntaxError} (h : E e c) : Meets E (throw e) c Q := h

/-- An error about the cursor is raised where it is. -/
theorem meets_failWith {error : Cursor → SyntaxError} (h : E (some (error c)) c) :
    Meets E (failWith error) c Q := h

/-- To look at the cursor leaves it where it is. -/
theorem meets_get {f : Cursor → Parser β} (h : Meets E (f c) c R) : Meets E (get >>= f) c R :=
  h.congr (bind_of_ok (run_get c))

/-- The current token is consumed, and the rest runs behind it. -/
theorem meets_advance {f : Unit → Parser β} (h : Meets E (f ()) c.skip R) :
    Meets E (advance >>= f) c R :=
  h.congr (bind_of_ok (run_advance c))

/-- A node is made with the next number, which is then taken. -/
theorem meets_node {make : Mark → Tree} {span : Span} {Q : Tree → Cursor → Prop}
    (h : Q (make ⟨c.nextId, span⟩) { c with nextId := c.nextId + 1 }) :
    Meets E (node make span) c Q := h

/-- A symbol is consumed if it is the current token, and nothing else is. -/
theorem meets_skip {s : Symbol} {Q : Bool → Cursor → Prop}
    (htrue : c.kind = .symbol s → Q true c.skip) (hfalse : c.kind ≠ .symbol s → Q false c) :
    Meets E (skip s) c Q := by
  by_cases hk : c.kind = .symbol s
  · obtain ⟨ks, hks⟩ := Cursor.kinds_of_kind (c := c) (by rw [hk]; exact nofun)
    rw [hk] at hks
    rw [Meets, run_skip_of_eq hks]
    exact htrue hk
  · rw [Meets, run_skip_of_ne fun ks hks => hk (Cursor.kind_of_kinds hks)]
    exact hfalse hk

/-- A symbol that has to come is consumed, or it is missed. -/
theorem meets_expect {s : Symbol} {Q : Unit → Cursor → Prop}
    (htrue : c.kind = .symbol s → Q () c.skip)
    (hfalse : c.kind ≠ .symbol s → E (some (c.expectedError (.symbol s))) c) :
    Meets E (expect s) c Q := by
  refine Meets.bind (meets_skip (Q := fun b c' =>
    (b = true → Q () c') ∧ (b = false → E (some (c'.expectedError (.symbol s))) c'))
    (fun hk => ⟨fun _ => htrue hk, nofun⟩) fun hk => ⟨nofun, fun _ => hfalse hk⟩) fun b c' h => ?_
  cases b with
  | true => exact h.1 rfl
  | false => exact h.2 rfl

end Parser

end CelShell
