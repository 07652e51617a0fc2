import CelShell.History.Introspection
import CelShell.Proofs.History.Ring

/-!
# Sessions show the end of a log

A log keeps all the lines of a session, and its functions show a line by the rule that a session
is to follow: the line comes before the last one, and together with what came after it there are
at most as many lines as are kept. `Session.Keeps` relates a session to the log of its lines; from
it, the functions that an expression is given for the session are those of the log.
-/

namespace CelShell

/-- All the lines of a session. -/
structure Log where
  /-- How many of them are kept. -/
  window : Nat
  /-- The indent of structured output. -/
  indent : Nat
  /-- The lines, oldest first. -/
  entries : List Entry

namespace Log

/-- How many lines there were. -/
def length (log : Log) : Nat := log.entries.length

/-- One more line. -/
def record (log : Log) (e : Entry) : Log := { log with entries := log.entries ++ [e] }

/-- A line in a format: its expression, or what is shown of a line that could not be read. -/
def render (log : Log) (format : Format) (e : Entry) : String :=
  match e.compiled with
  | .ok c => format.render log.indent c.expr
  | .error _ => Session.failedEntry

/-- What is shown of the line of a number counted from one. -/
def inspectAt (log : Log) (n : Int) (format : Format) : String :=
  if h : 1 ≤ n ∧ n ≤ log.entries.length - 1 ∧ log.entries.length - n + 1 ≤ log.window then
    log.render format (log.entries.get ⟨(n - 1).toNat, by omega⟩)
  else Session.noHistory

/-- A line of the window is rendered. -/
theorem inspectAt_of_window {log : Log} {n : Int} {e : Entry}
    (h : 1 ≤ n ∧ n ≤ log.entries.length - 1 ∧ log.entries.length - n + 1 ≤ log.window)
    (he : log.entries[(n - 1).toNat]? = some e) (format : Format) :
    log.inspectAt n format = log.render format e := by
  obtain ⟨_, rfl⟩ := List.getElem?_eq_some_iff.mp he
  unfold inspectAt
  rw [dif_pos h]
  rfl

/-- Of any other number nothing is shown. -/
theorem inspectAt_of_not_window {log : Log} {n : Int}
    (h : ¬(1 ≤ n ∧ n ≤ log.entries.length - 1 ∧ log.entries.length - n + 1 ≤ log.window))
    (format : Format) : log.inspectAt n format = Session.noHistory := by
  unfold inspectAt
  rw [dif_neg h]

/-- What is shown of the line before the last one. -/
def inspectPrevious (log : Log) (format : Format) : String :=
  log.inspectAt ((log.length : Int) - 1) format

/-- Shows the line before the last one, or a numbered one. -/
def inspect (log : Log) : Handler
  | [] => .ok (.string (log.inspectPrevious .raw))
  | [.string tag] => .ok (.string (log.inspectPrevious (.ofTag tag)))
  | [.int n] => .ok (.string (log.inspectAt n.toInt .raw))
  | [.int n, .string tag] => .ok (.string (log.inspectAt n.toInt (.ofTag tag)))
  | args => refused Introspection.inspectName args

/-- Shows a numbered line. -/
def inspectInt (log : Log) : Handler
  | [.int n] => .ok (.string (log.inspectAt n.toInt .raw))
  | [.int n, .string tag] => .ok (.string (log.inspectAt n.toInt (.ofTag tag)))
  | args => refused Introspection.inspectIntName args

/-- The functions of a log. -/
def bindings (log : Log) : Bindings :=
  [(Introspection.quitName, Introspection.quit), (Introspection.inspectName, log.inspect),
    (Introspection.inspectIntName, log.inspectInt)]

/-- An expression that calls `inspect` calls that of the log. -/
theorem call_inspect (log : Log) (args : List Value) :
    log.bindings.call "inspect" args = log.inspect args := by
  have hget : Table.get? log.bindings "inspect" = some log.inspect := by
    unfold bindings
    rw [Table.get?, if_neg (by decide), Table.get?, if_pos (by decide)]
  unfold Bindings.call
  rw [hget]

/-- An expression that calls `inspect_int` calls that of the log. -/
theorem call_inspectInt (log : Log) (args : List Value) :
    log.bindings.call "inspect_int" args = log.inspectInt args := by
  have hget : Table.get? log.bindings "inspect_int" = some log.inspectInt := by
    unfold bindings
    rw [Table.get?, if_neg (by decide), Table.get?, if_neg (by decide), Table.get?,
      if_pos (by decide)]
  unfold Bindings.call
  rw [hget]

/-! ## What a log lets be seen -/

/-- Two logs with as many lines, of which those that can be shown are the same. -/
structure SameView (log other : Log) : Prop where
  /-- As many lines are kept. -/
  window_eq : log.window = other.window
  /-- Trees are laid out the same. -/
  indent_eq : log.indent = other.indent
  /-- There were as many lines. -/
  length_eq : log.length = other.length
  /-- A line before the last one that fits the window is the same line. -/
  entry_eq : ∀ k, k + 1 < log.length → log.length ≤ k + log.window →
    log.entries[k]? = other.entries[k]?

variable {log other : Log}

/-- Nothing but the view decides what is shown of a line. -/
theorem SameView.inspectAt_eq (h : SameView log other) (n : Int) (format : Format) :
    log.inspectAt n format = other.inspectAt n format := by
  have hlength : log.entries.length = other.entries.length := h.length_eq
  have hrender : ∀ e, log.render format e = other.render format e := by
    intro e
    unfold render
    rw [h.indent_eq]
  by_cases hn : 1 ≤ n ∧ n ≤ log.entries.length - 1 ∧ log.entries.length - n + 1 ≤ log.window
  · have hk : (n - 1).toNat < log.entries.length := by omega
    have he : log.entries[(n - 1).toNat]? = some log.entries[(n - 1).toNat] :=
      List.getElem?_eq_getElem hk
    -- The entry stands in the part of the log that both have alike.
    have hother : other.entries[(n - 1).toNat]? = some log.entries[(n - 1).toNat] := by
      rw [← h.entry_eq (n - 1).toNat, he]
      · show _ < log.entries.length
        omega
      · show log.entries.length ≤ _
        omega
    rw [inspectAt_of_window hn he, hrender, inspectAt_of_window _ hother]
    rw [← hlength, ← h.window_eq]
    exact hn
  · rw [inspectAt_of_not_window hn, inspectAt_of_not_window]
    rw [← hlength, ← h.window_eq]
    exact hn

/-- Nothing but the view decides what the functions of a log do. -/
theorem SameView.bindings_eq (h : SameView log other) : log.bindings = other.bindings := by
  -- The line before the last one is asked for by its number, which both lengths give alike.
  have hprevious : ∀ format, log.inspectPrevious format = other.inspectPrevious format := by
    intro format
    unfold inspectPrevious
    rw [h.length_eq, h.inspectAt_eq]
  have hinspect : log.inspect = other.inspect := by
    funext args
    unfold inspect
    simp only [hprevious, h.inspectAt_eq]
  have hinspectInt : log.inspectInt = other.inspectInt := by
    funext args
    unfold inspectInt
    simp only [h.inspectAt_eq]
  unfold bindings
  rw [hinspect, hinspectInt]

/-- One more line that is the same keeps the view the same, once the lines of before agree as far
back as the line still lets them be seen. -/
theorem sameView_record (hwindow : log.window = other.window) (hindent : log.indent = other.indent)
    (hlength : log.length = other.length)
    (hdrop : log.entries.drop (log.length + 1 - log.window) =
      other.entries.drop (log.length + 1 - log.window)) (e : Entry) :
    SameView (log.record e) (other.record e) := by
  have hlen : log.entries.length = other.entries.length := hlength
  have hrecord : (log.record e).length = log.length + 1 := by
    show (log.entries ++ [e]).length = log.entries.length + 1
    rw [List.length_append, List.length_singleton]
  refine ⟨hwindow, hindent, ?_, ?_⟩
  · show (log.entries ++ [e]).length = (other.entries ++ [e]).length
    rw [List.length_append, List.length_append, hlen]
  · intro k hk hw
    rw [hrecord] at hk hw
    change log.entries.length + 1 ≤ k + log.window at hw
    have hlog : k < log.entries.length := by
      change k + 1 < log.entries.length + 1 at hk; omega
    show (log.entries ++ [e])[k]? = (other.entries ++ [e])[k]?
    rw [List.getElem?_append_left hlog, List.getElem?_append_left (hlen ▸ hlog)]
    -- Both entries are read in the parts that agree.
    have hget := congrArg (fun l : List Entry => l[k - (log.length + 1 - log.window)]?) hdrop
    simp only [List.getElem?_drop] at hget
    have hk' : log.length + 1 - log.window + (k - (log.length + 1 - log.window)) = k := by
      show log.entries.length + 1 - log.window + (k - (log.entries.length + 1 - log.window)) = k
      omega
    rw [hk'] at hget
    exact hget

end Log

namespace Session

/-- The session has recorded the lines of a log. -/
structure Keeps (s : Session) (log : Log) : Prop where
  /-- As many lines are kept. -/
  capacity_eq : s.history.capacity = log.window
  /-- Trees are laid out the same. -/
  indent_eq : s.indent = log.indent
  /-- The ring has taken the lines. -/
  holds : s.history.Holds log.entries

variable {s : Session} {log : Log}

/-- A session begins with the log that has no lines. -/
theorem new_keeps {capacity : Nat} (h : 0 < capacity) (indent : Nat) :
    ∃ s, new capacity indent = .ok s ∧ s.Keeps ⟨capacity, indent, []⟩ := by
  refine ⟨⟨Ring.empty capacity h, indent⟩, ?_, rfl, rfl, Ring.holds_empty capacity h⟩
  unfold new Ring.new
  rw [dif_pos h]
  rfl

/-- One more line of the session is one more line of the log. -/
theorem Keeps.record (h : s.Keeps log) (e : Entry) : (s.record e).Keeps (log.record e) :=
  ⟨h.capacity_eq, h.indent_eq, h.holds.insert e⟩

/-- The session counts the lines of the log. -/
theorem Keeps.position_eq (h : s.Keeps log) : s.position = log.length := h.holds.position_eq

/-- A line is rendered as in the log. -/
theorem Keeps.render_eq (h : s.Keeps log) (format : Format) (e : Entry) :
    s.render format e = log.render format e := by
  have hindent := h.indent_eq
  unfold render Log.render
  generalize s.indent = indent at hindent ⊢
  subst hindent
  rfl

/-- The session shows what the log shows. -/
theorem Keeps.inspectAt_eq (h : s.Keeps log) (n : Int) (format : Format) :
    s.inspectAt n format = log.inspectAt n format := by
  have hpos : s.position = log.entries.length := h.position_eq
  unfold inspectAt
  rw [hpos, h.holds.getAbsolute?_eq, h.capacity_eq]
  by_cases hn : 1 ≤ n ∧ n ≤ log.entries.length - 1 ∧ log.entries.length - n + 1 ≤ log.window
  · have hk : (n - 1).toNat < log.entries.length := by omega
    have he := List.getElem?_eq_getElem hk
    rw [if_pos (by omega), if_pos (by omega), he, Log.inspectAt_of_window hn he]
    exact h.render_eq format _
  · rw [Log.inspectAt_of_not_window hn]
    split
    · -- The number is before the last line, so the ring has none for it.
      rw [if_neg (by omega)]
    · rfl

/-- The session shows of the line before the last one what the log shows. -/
theorem Keeps.inspectPrevious_eq (h : s.Keeps log) (format : Format) :
    s.inspectPrevious format = log.inspectPrevious format := by
  unfold inspectPrevious Log.inspectPrevious
  rw [h.inspectAt_eq, h.position_eq]

/-- The functions of the session are those of the log. -/
theorem Keeps.bindings_eq (h : s.Keeps log) : Introspection.bindings s = log.bindings := by
  have hprevious : s.inspectPrevious = log.inspectPrevious := funext h.inspectPrevious_eq
  have hat : s.inspectAt = log.inspectAt := funext fun n => funext (h.inspectAt_eq n)
  have hinspect : Introspection.inspect s = log.inspect := by
    funext args
    unfold Introspection.inspect Log.inspect
    -- The two differ in nothing but how they show a line.
    generalize s.inspectPrevious = previous at hprevious ⊢
    generalize s.inspectAt = shown at hat ⊢
    subst hprevious hat
    rfl
  have hinspectInt : Introspection.inspectInt s = log.inspectInt := by
    funext args
    unfold Introspection.inspectInt Log.inspectInt
    rw [hinspect]
    rfl
  unfold Introspection.bindings Log.bindings
  rw [hinspect, hinspectInt]

end Session

end CelShell
