import Mathlib.Data.List.DropRight
import CelShell.Proofs.History.Window
import CelShell.Proofs.Shell.Outcome

/-!
# Every line is recorded once and answered

A blank line has no effect. Any other line is recorded under the next number (`Shell.Records`)
before anything is written, so the shell afterwards does not depend on what the output does with
what is written. What is to be written is never nothing: a line has a value, an error, or at least
one issue (`Shell.report_outcome_ne_nil`). `Shell.submit_records` puts this together for the shells
of a session, every line and every output.
-/

namespace CelShell

namespace Shell

variable {s : Shell} {line : String}

/-! ## The text of a line -/

/-- A line is its text and the ends of line after it. -/
theorem exists_lineEnds (line : String) :
    ∃ ends : String, line = lineText line ++ ends ∧ (∀ c ∈ ends.toList, c = '\n' ∨ c = '\r') ∧
      ∀ c, (lineText line).toList.getLast? = some c → c ≠ '\n' ∧ c ≠ '\r' := by
  have htext : (lineText line).toList =
      line.toList.rdropWhile fun c => c == '\n' || c == '\r' := String.toList_ofList
  refine ⟨String.ofList (line.toList.rtakeWhile fun c => c == '\n' || c == '\r'), ?_, ?_, ?_⟩
  · rw [← String.toList_inj, String.toList_append, htext, String.toList_ofList,
      List.rdropWhile_append_rtakeWhile]
  · -- What is cut off holds ends of line only, and what is left does not end in one.
    intro c hc
    rw [String.toList_ofList] at hc
    simpa using List.mem_rtakeWhile_imp hc
  · intro c hc
    rw [htext] at hc
    obtain ⟨hne, rfl⟩ := List.mem_getLast?_eq_getLast hc
    simpa using List.rdropWhile_last_not _ _ hne

/-- The ends of line are white space, so a line is blank when its text is. -/
theorem isBlank_lineText (line : String) : isBlank (lineText line) = isBlank line := by
  obtain ⟨ends, hline, hends, -⟩ := exists_lineEnds line
  have hblank : ends.toList.all Unicode.isWhiteSpace = true := by
    rw [List.all_eq_true]
    intro c hc
    rcases hends c hc with rfl | rfl <;> decide +kernel
  have hall : isBlank line = ((lineText line).toList.all Unicode.isWhiteSpace &&
      ends.toList.all Unicode.isWhiteSpace) := by
    rw [← List.all_append, ← String.toList_append, ← hline]
    rfl
  rw [hall, hblank, Bool.and_true]
  rfl

/-! ## Reports -/

/-- A line ends the session with the last words, or at least one text is reported of it. -/
theorem report_outcome (s : Shell) (line : String) :
    report (s.outcome line) = ([.farewell], .terminated) ∨
      ∃ texts : List String, texts ≠ [] ∧
        report (s.outcome line) = (texts.map .record, .goOn) := by
  cases houtcome : s.outcome line with
  | ok v => exact Or.inr ⟨[display v], List.cons_ne_nil _ _, rfl⟩
  | error failure =>
    cases failure with
    | issues is =>
      refine Or.inr ⟨is.rendered.map fun text => String.ofList (Unicode.trim text.toList), ?_, ?_⟩
      · -- Where there are issues there is one at least.
        have hfound := found_of_outcome houtcome
        simpa [Issues.rendered] using hfound
      · rw [List.map_map]
        rfl
    | program e => exact Or.inr ⟨[e.text], List.cons_ne_nil _ _, rfl⟩
    | evaluation e =>
      by_cases hquit : e = .quit
      · exact Or.inl (by rw [hquit]; rfl)
      · exact Or.inr ⟨[e.text], List.cons_ne_nil _ _, report_evaluation hquit⟩

/-! ## Recording -/

/-- The second shell is the first one with one more line: it counts the line, finds it under the
next number and as the last one, and has lost nothing but the line that the capacity drops. -/
structure Records (s : Shell) (e : Entry) (after : Shell) : Prop where
  /-- Lines are read, checked and prompted for as before. -/
  fixed_eq : after.fixed = s.fixed
  /-- As many lines are kept, and shown in the same way. -/
  settings_eq : after.session.history.capacity = s.session.history.capacity ∧
    after.session.indent = s.session.indent
  /-- The line counts. -/
  position_eq : after.position = s.position + 1
  /-- The line has the next number, and all others that are kept have theirs. -/
  getAbsolute?_eq : ∀ n : Int, after.session.history.getAbsolute? n =
    if n = s.position then some e
    else if n = s.position - s.session.history.capacity then none
    else s.session.history.getAbsolute? n
  /-- The line comes last, and the oldest one leaves if there were as many as are kept. -/
  toList_eq : after.session.history.toList = (s.session.history.toList ++ [e]).drop
    (s.session.history.toList.length + 1 - s.session.history.capacity)

/-- The session of a shell has recorded some log, of which it keeps as many lines as the settings
say. -/
theorem Reachable.exists_keeps {settings : Settings} (h : Reachable settings s) :
    ∃ log, s.session.Keeps log ∧ log.window = settings.historySize := by
  obtain ⟨start, lines, hnew, rfl⟩ := h
  have hsize : 1 ≤ settings.historySize := by
    -- Settings that keep no line have no shell.
    by_contra hzero
    obtain ⟨declared, hdeclared⟩ := declared_introspection
    unfold new Session.new Ring.new at hnew
    rw [hdeclared, dif_neg (by omega)] at hnew
    cases hnew
  obtain ⟨start', hnew', hrefines⟩ := new_refines settings hsize
  obtain rfl := Except.ok.inj (hnew'.symm.trans hnew)
  refine ⟨_, (hrefines.after lines).keeps, ?_⟩
  rw [LogShell.start_after]
  rfl

/-- To record a line does nothing else. -/
theorem Reachable.records {settings : Settings} (h : Reachable settings s) (line : String) :
    s.Records (s.entryOf line) (s.recorded line) := by
  obtain ⟨log, hkeeps, -⟩ := h.exists_keeps
  exact ⟨rfl, ⟨rfl, rfl⟩, rfl, s.session.history.getAbsolute?_insert _,
    hkeeps.holds.toList_insert _⟩

/-! ## Submissions -/

/-- Each line is recorded once and answered. In any session and with any output, a blank line
changes nothing and has nothing written. Any other line is its text and some ends of line; the text
is recorded with what is read from it, whether or not the output fails. If the output takes all that
is to be written, then these are the last words and the session ends, or at least one text after the
prompt with the number that is next, and the session goes on. -/
theorem submit_records (settings : Settings) {s : Shell} (hs : Reachable settings s) (line : String)
    {σ : Type} (write : Writer (StateM σ)) (w : σ) :
    (isBlank line = true → (submit write s line).run w = ((s, .ok .goOn), w)) ∧
    (isBlank line = false → ∃ (after : Shell) (step : Step) (pieces : List String),
      (∃ ends : String, line = lineText line ++ ends ∧ (∀ c ∈ ends.toList, c = '\n' ∨ c = '\r') ∧
        ∀ c, (lineText line).toList.getLast? = some c → c ≠ '\n' ∧ c ≠ '\r') ∧
      s.Records ⟨lineText line, s.env.compile (lineText line)⟩ after ∧
      s.session.history.capacity = settings.historySize ∧
      after.prompt = "(" ++ String.ofList (Number.toDigits (after.position + 1)) ++ ")"
        ++ settings.prompt ∧
      ((step = .terminated ∧ pieces = ["So long, and thanks for all the fish!", "\n"]) ∨
        (step = .goOn ∧ ∃ texts : List String, texts ≠ [] ∧
          pieces = texts.flatMap fun text => [after.prompt, text, "\n"])) ∧
      ((∃ w', (submit write s line).run w = ((after, .ok step), w') ∧ Writes write pieces w w') ∨
        ∃ reason w', (submit write s line).run w = ((after, .error (.output reason)), w') ∧
          Fails write pieces w reason w')) := by
  constructor
  · intro hblank
    rw [← isBlank_lineText] at hblank
    unfold submit
    rw [respond_of_blank hblank]
    rfl
  · intro hblank
    rw [← isBlank_lineText] at hblank
    -- The ring keeps a log, whatever lines came before.
    obtain ⟨log, hkeeps, hwindow⟩ := hs.exists_keeps
    obtain ⟨-, -, -, -, hprompt⟩ := hs.exists_declared
    refine ⟨s.recorded line, _, _, exists_lineEnds line, hs.records line,
      hkeeps.capacity_eq.trans hwindow, by rw [← hprompt]; rfl, ?_,
      submit_writes write s line w (respond_eq hblank s) rfl⟩
    rcases report_outcome s line with hreport | ⟨texts, htexts, hreport⟩
    · rw [hreport]
      exact Or.inl ⟨rfl, rfl⟩
    · rw [hreport]
      refine Or.inr ⟨rfl, texts, htexts, ?_⟩
      rw [List.flatMap_map]
      rfl

/-- Takes as many pieces as there is room for. -/
def limited : Writer (StateM Nat) := fun _ => do
  match ← get with
  | 0 => return .error "no room"
  | room + 1 =>
    set room
    return .ok ()

/-- The first line of a session is recorded although there is room for its prompt only; a blank one
needs no room. -/
theorem submit_records_no_room :
    ∃ start, new { historySize := 1 } = .ok start ∧
      (submit limited start " \r\n").run 0 = ((start, .ok .goOn), 0) ∧
      ∃ after result room, (submit limited start "1 + 2\r\n").run 1 = ((after, result), room) ∧
        after.position = 1 ∧
        after.session.history.getAbsolute? 0 = some ⟨"1 + 2", start.env.compile "1 + 2"⟩ := by
  obtain ⟨start, hnew, hrefines⟩ := new_refines { historySize := 1 } (by decide)
  have hreachable : Reachable { historySize := 1 } start := ⟨start, [], hnew, rfl⟩
  have hstart : start.position = 0 := hrefines.keeps.position_eq
  have hline : lineText "1 + 2\r\n" = "1 + 2" := by decide +kernel
  obtain ⟨after, step, pieces, -, hrecords, -, -, -, hwrites⟩ :=
    (submit_records { historySize := 1 } hreachable "1 + 2\r\n" limited 1).2 (by decide +kernel)
  have hafter : after.position = 1 := by rw [hrecords.position_eq, hstart]
  have hentry := hrecords.getAbsolute?_eq 0
  rw [hstart, Int.natCast_zero, if_pos rfl, hline] at hentry
  refine ⟨start, hnew,
    (submit_records { historySize := 1 } hreachable " \r\n" limited 0).1 (by decide +kernel), ?_⟩
  -- The entry is there in either case.
  rcases hwrites with ⟨room, hrun, -⟩ | ⟨reason, room, hrun, -⟩
  · exact ⟨after, _, room, hrun, hafter, hentry⟩
  · exact ⟨after, _, room, hrun, hafter, hentry⟩

end Shell

end CelShell
