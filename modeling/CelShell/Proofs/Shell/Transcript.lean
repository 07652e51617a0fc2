import CelShell.Proofs.Shell.Log
import CelShell.Shell.Run

/-!
# What a session prints

`transcribe` is the output that takes everything and keeps it as one text. With it `submit` always
gives the step of the answer and prints what the answer is to print, after what was printed before
(`submit_transcribe`). With an output that can fail it gives that step once all pieces are written,
or an error of the output at the first piece that is not, and nothing else (`submit_writes`).

The shells that a session of some settings comes to are the `Reachable` ones. Lines change the
session of a shell only, so all of them read texts and check expressions the same.
-/

namespace CelShell

namespace Shell

/-! ## Output -/

/-- Writes to the end of a text. -/
def transcribe : Writer (StateM String) := fun piece => do
  modify (· ++ piece)
  return .ok ()

/-- All pieces are written. -/
theorem writeAll_transcribe (pieces : List String) (printed : String) :
    (writeAll transcribe pieces).run printed = (.ok (), printed ++ String.join pieces) := by
  induction pieces generalizing printed with
  | nil =>
    show ((Except.ok (), printed) : Except String Unit × String) = _
    rw [String.join_nil, String.append_empty]
  | cons piece rest ih =>
    show (writeAll transcribe rest).run (printed ++ piece) = _
    rw [ih, String.join_cons, String.append_assoc]

/-- What `submit` gives and prints. -/
theorem submit_transcribe (s : Shell) (line printed : String) :
    (submit transcribe s line).run printed =
      (((s.respond line).shell, .ok (s.respond line).step),
        printed ++
          String.join ((s.respond line).output.flatMap (s.respond line).shell.pieces)) := by
  have hwrite := writeAll_transcribe
    ((s.respond line).output.flatMap (s.respond line).shell.pieces) printed
  unfold submit
  rw [StateT.run_bind, hwrite]
  rfl

/-- An output takes pieces one after the other, without a failure. -/
def Writes {σ : Type} (write : Writer (StateM σ)) : List String → σ → σ → Prop
  | [], w, w' => w' = w
  | piece :: rest, w, w' => ∃ v, (write piece).run w = (.ok (), v) ∧ Writes write rest v w'

/-- An output takes some of the pieces and fails at the next one. -/
def Fails {σ : Type} (write : Writer (StateM σ)) (pieces : List String) (w : σ) (reason : String)
    (w' : σ) : Prop :=
  ∃ before piece rest v, pieces = before ++ piece :: rest ∧ Writes write before w v ∧
    (write piece).run v = (.error reason, w')

/-- All pieces are written, or those up to one that cannot be. -/
theorem writeAll_cases {σ : Type} (write : Writer (StateM σ)) (pieces : List String) (w : σ) :
    (∃ w', (writeAll write pieces).run w = (.ok (), w') ∧ Writes write pieces w w') ∨
      ∃ reason w', (writeAll write pieces).run w = (.error reason, w') ∧
        Fails write pieces w reason w' := by
  induction pieces generalizing w with
  | nil => exact Or.inl ⟨w, rfl, rfl⟩
  | cons piece rest ih =>
    have hrun : (writeAll write (piece :: rest)).run w =
        match (write piece).run w with
        | (.ok (), v) => (writeAll write rest).run v
        | (.error reason, v) => (.error reason, v) := by
      rw [writeAll, StateT.run_bind]
      rcases (write piece).run w with ⟨⟨reason⟩ | ⟨⟩, v⟩ <;> rfl
    rw [hrun]
    -- The output fails at this piece, or goes on with the others in the state that it is left in.
    rcases hpiece : (write piece).run w with ⟨⟨reason⟩ | ⟨⟩, v⟩
    · exact Or.inr ⟨reason, v, rfl, [], piece, rest, w, rfl, rfl, hpiece⟩
    · rcases ih v with ⟨w', hwrite, hall⟩ | ⟨reason, w', hwrite, before, failing, after, u, hsplit,
        hbefore, hfailing⟩
      · exact Or.inl ⟨w', hwrite, v, hpiece, hall⟩
      · exact Or.inr ⟨reason, w', hwrite, piece :: before, failing, after, u,
          congrArg (piece :: ·) hsplit, ⟨v, hpiece, hbefore⟩, hfailing⟩

/-- With any output, `submit` gives the shell of the answer. It gives the step of the answer if all
of the answer is written, and an error of the output otherwise. -/
theorem submit_writes {σ : Type} (write : Writer (StateM σ)) (s : Shell) (line : String) (w : σ)
    {response : Response} (hresponse : s.respond line = response) {pieces : List String}
    (hpieces : response.output.flatMap response.shell.pieces = pieces) :
    (∃ w', (submit write s line).run w = ((response.shell, .ok response.step), w') ∧
        Writes write pieces w w') ∨
      ∃ reason w',
        (submit write s line).run w = ((response.shell, .error (.output reason)), w') ∧
          Fails write pieces w reason w' := by
  unfold submit
  rw [hresponse]
  dsimp only
  rw [hpieces, StateT.run_bind]
  -- The shell is the one of the answer before anything is written.
  rcases writeAll_cases write pieces w with ⟨w', hwrite, hall⟩ | ⟨reason, w', hwrite, hfails⟩
  · refine Or.inl ⟨w', ?_, hall⟩
    rw [hwrite]
    rfl
  · refine Or.inr ⟨reason, w', ?_, hfails⟩
    rw [hwrite]
    rfl

/-- With any output, `submit` gives the step of the answer unless the output fails. -/
theorem submit_cases {σ : Type} (write : Writer (StateM σ)) (s : Shell) (line : String) (w : σ) :
    ((submit write s line).run w).1 = ((s.respond line).shell, .ok (s.respond line).step) ∨
      ∃ reason, ((submit write s line).run w).1 =
        ((s.respond line).shell, .error (.output reason)) := by
  rcases submit_writes write s line w rfl rfl with ⟨w', hrun, -⟩ | ⟨reason, w', hrun, -⟩
  · rw [hrun]
    exact Or.inl rfl
  · rw [hrun]
    exact Or.inr ⟨reason, rfl⟩

/-- The number of a line, as it stands before the text of the settings. -/
def counter (s : Shell) : String := "(" ++ String.ofList (Number.toDigits (s.position + 1)) ++ ")"

end Shell

/-- What is printed, after a number for the line and the text of the settings. -/
def Printed.textAfter (counter promptText : String) : Printed → String
  | .record text => counter ++ promptText ++ text ++ "\n"
  | .farewell => Shell.farewell ++ "\n"

namespace Shell

/-- The pieces of an output make up its text. -/
theorem join_pieces (s : Shell) (p : Printed) :
    String.join (s.pieces p) = p.textAfter s.counter s.promptText := by
  cases p with
  | record text =>
    show String.join [s.counter ++ s.promptText, text, "\n"] = _
    rw [String.join_cons, String.join_cons, String.join_cons, String.join_nil, String.append_empty,
      ← String.append_assoc]
    rfl
  | farewell =>
    show String.join [farewell, "\n"] = _
    rw [String.join_cons, String.join_cons, String.join_nil, String.append_empty]
    rfl

/-- The pieces of several outputs make up their texts. -/
theorem join_flatMap_pieces (s : Shell) (output : List Printed) :
    String.join (output.flatMap s.pieces) =
      String.join (output.map (Printed.textAfter s.counter s.promptText)) := by
  induction output with
  | nil => rfl
  | cons p rest ih =>
    rw [List.flatMap_cons, List.map_cons, String.join_append, join_pieces, ih, String.join_cons]

/-! ## Reports -/

/-- An error is printed, unless it is the demand to end the session. -/
theorem report_evaluation {e : EvalError} (h : e ≠ .quit) :
    report (.error (.evaluation e)) = ([.record e.text], .goOn) := by
  cases e with
  | quit => exact absurd rfl h
  | _ => rfl

/-- The session goes on after anything but the demand to end it. -/
theorem step_report {r : Except Failure Value} (h : r ≠ .error (.evaluation .quit)) :
    (report r).2 = .goOn := by
  cases r with
  | ok v => rfl
  | error failure =>
    cases failure with
    | issues is => rfl
    | program e => rfl
    | evaluation e => rw [report_evaluation fun he => h (he ▸ rfl)]

/-! ## Sessions -/

/-- The shell can come up in a session of some settings. -/
def Reachable (settings : Settings) (s : Shell) : Prop :=
  ∃ start lines, new settings = .ok start ∧ s = start.after lines

/-- The parts of a shell that no line changes. -/
def fixed (s : Shell) : Environment × Bool × String := (s.env, s.check, s.promptText)

/-- A line changes only the session. -/
theorem fixed_respond (s : Shell) (line : String) : (s.respond line).shell.fixed = s.fixed := by
  cases hblank : isBlank (lineText line) with
  | true => rw [respond_of_blank hblank]
  | false => rw [respond_of_not_blank hblank]; rfl

/-- Lines change only the session. -/
theorem fixed_after (s : Shell) (lines : List String) : (s.after lines).fixed = s.fixed := by
  induction lines generalizing s with
  | nil => rfl
  | cons line rest ih => rw [after_cons, ih, fixed_respond]

/-- A line takes a session on. -/
theorem Reachable.respond {settings : Settings} {s : Shell} (h : Reachable settings s)
    (line : String) : Reachable settings (s.respond line).shell := by
  obtain ⟨start, lines, hnew, rfl⟩ := h
  refine ⟨start, lines ++ [line], hnew, ?_⟩
  unfold after
  rw [List.foldl_append]
  rfl

/-- What holds of the shells of some settings at any time. -/
theorem Reachable.exists_declared {settings : Settings} {s : Shell} (h : Reachable settings s) :
    ∃ declared, Declarations.standard.declareAll Introspection.declarations = .ok declared ∧
      s.env = ⟨settings.macrosOn, declared⟩ ∧ s.check = settings.check ∧
        s.promptText = settings.prompt := by
  obtain ⟨start, lines, hnew, rfl⟩ := h
  obtain ⟨declared, hdeclared⟩ := declared_introspection
  -- What lines leave alone is as it was at the start.
  have hfixed := fixed_after start lines
  unfold new at hnew
  rw [hdeclared] at hnew
  cases hsession : Session.new settings.historySize settings.formatIndent with
  | error e =>
    rw [hsession] at hnew
    cases hnew
  | ok session =>
    rw [hsession] at hnew
    obtain rfl := Except.ok.inj hnew
    obtain ⟨henv, hrest⟩ := Prod.mk.inj hfixed
    obtain ⟨hcheck, hprompt⟩ := Prod.mk.inj hrest
    exact ⟨declared, hdeclared, henv, hcheck, hprompt⟩

end Shell

end CelShell
