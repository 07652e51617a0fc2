import CelShell.Proofs.Environment
import CelShell.Proofs.Grammar.Location
import CelShell.Proofs.Typing.Blame

/-!
# Every location is real

The nodes of a text that is read stand where their spans say, and whatever is wrong with a text is
reported at a place of it. A fault of a token and an error of the syntax are at places by the lexer
and the parser (`Expr.parse_places`), and an error of a type is where a node starts
(`Expr.check_blames`). A place is on a line, so an issue about it keeps its span and is rendered
with the line and a caret (`Issue.isLocated_about`).
-/

namespace CelShell

open Position Scan

namespace Issue

/-- An issue of a place of the text, rendered with the line and with a caret under the column. -/
def IsLocated (source : SourceText) (issue : Issue) : Prop :=
  ∃ span line, issue.span = some span ∧ span.start.IsPlaceOf source.content.toList ∧
    source.line? span.start.line = some line ∧
    issue.render source =
      "ERROR: " ++ source.name ++ ":" ++ span.start.text ++ ": " ++ issue.message ++ "\n | " ++
        line ++ "\n | " ++ String.ofList (List.replicate (span.start.column - 1) '.') ++ "^"

/-- A message about a place is located. -/
theorem isLocated_about {source : SourceText} {span : Span} (message : String)
    (h : span.start.IsPlaceOf source.content.toList) :
    (about message (some span)).IsLocated source := by
  have hspan : (about message (some span)).span = some span := by
    simp [about, Span.isDummy_of_isPlaceOf h]
  obtain ⟨line, hline⟩ := SourceText.exists_line?_of_isPlaceOf h
  refine ⟨span, line, hspan, h, hline, ?_⟩
  unfold render
  rw [hspan]
  dsimp only
  rw [hline]

end Issue

/-- Issues of an entered text, each of them at a place. -/
structure Issues.AreLocated (issues : Issues) (text : String) : Prop where
  source : issues.source = ⟨inputName, text⟩
  found : ∀ issue ∈ issues.found, issue.IsLocated ⟨inputName, text⟩

namespace Expr

/-- A text is read as a tree whose nodes stand in it, or has an error at a place of it. -/
theorem parse_places (source : String) (m : Bool) :
    match parse source m with
    | .ok t => ∀ n ∈ t.nodes, n.IsLocated source.toList
    | .error e => e.span.start.IsPlaceOf source.toList := by
  have hstart := isPlaceAfter_advance_start []
  unfold parse
  cases htokens : Token.list source with
  | ok tokens => exact ofTokens_places ((laid_of_listFrom htokens).placed hstart) m
  | error e => exact isPlaceOf_of_listFrom htokens hstart

end Expr

namespace Environment

/-- Every location is real. The nodes of a text that is read stand in it, each with its children
inside of it and in order. What is wrong with a text, be it that it is not read or that its tree has
no type under some declarations, is at a place of the text and is rendered with the line. -/
theorem isLocated_nodes_issues (text : String) :
    (∀ m t, Expr.parse text m = .ok t → ∀ n ∈ t.nodes,
      n.mark.span.isDummy = false ∧ n.IsLocated text.toList) ∧
    (∀ env issues, compile env text = .error issues → issues.AreLocated text) ∧
    ∀ env c env' issues, compile env text = .ok c → check env' c = .error issues →
      issues.AreLocated text := by
  have hnodes : ∀ m t, Expr.parse text m = .ok t → ∀ n ∈ t.nodes, n.IsLocated text.toList := by
    intro m t ht
    have hplaces := Expr.parse_places text m
    rwa [ht] at hplaces
  refine ⟨fun m t ht n hn => ?_, fun env issues h => ?_, fun env c env' issues hc h => ?_⟩
  · have hlocated := hnodes m t ht n hn
    exact ⟨Span.isDummy_of_isPlaceOf hlocated.stretch.start, hlocated⟩
  · obtain ⟨e, he, rfl⟩ := compile_eq_error h
    have hplaces := Expr.parse_places text env.macrosOn
    rw [he] at hplaces
    exact ⟨rfl, List.forall_mem_singleton.2 (Issue.isLocated_about e.text hplaces)⟩
  · obtain ⟨hparse, hsource⟩ := compile_eq_ok hc
    obtain ⟨errors, herrors, rfl⟩ := check_eq_error h
    refine ⟨hsource, List.forall_mem_map.2 fun e he => ?_⟩
    -- The error has the span of a node, and the node stands in the text that was read.
    obtain ⟨n, hn, hspan⟩ := Expr.check_blames env'.declared herrors e he
    have hplace := (hnodes _ _ hparse n hn).stretch.start
    rw [← hspan] at hplace
    exact Issue.isLocated_about e.fault.text hplace

/-- What is reported of a text on the way to the type of its tree, rendered. -/
def reported (env : Environment) (text : String) : List String :=
  match env.compile text >>= env.check with
  | .ok _ => []
  | .error issues => issues.rendered

/-- Two lines with characters of several bytes and an undeclared variable. -/
def twoLines : String := "'é∀' +\n\t(size(y))"

/-- Behind characters of several bytes, the column of an issue and the points under its line count
characters. -/
theorem isLocated_nodes_issues_two_lines :
    (∃ c issues, compile (standard true) twoLines = .ok c ∧
      check (standard true) c = .error issues ∧
      issues.rendered =
        ["ERROR: <input>:2:8: undeclared reference to 'y'\n | \t(size(y))\n | .......^",
          "ERROR: <input>:1:1: found no matching overload for '_+_' applied to '(string, int)'" ++
            "\n | 'é∀' +\n | ^"] ∧
      (∀ n ∈ c.expr.nodes, n.mark.span.isDummy = false ∧ n.IsLocated twoLines.toList) ∧
      issues.AreLocated twoLines) ∧
    ∃ issues, compile (standard true) (twoLines ++ ")") = .error issues ∧
      issues.rendered =
        ["ERROR: <input>:2:11: Syntax error: unexpected ')'\n | \t(size(y)))\n | ..........^"] ∧
      issues.AreLocated (twoLines ++ ")") := by
  obtain ⟨hnodes, -, htypes⟩ := isLocated_nodes_issues twoLines
  obtain ⟨-, hfault, -⟩ := isLocated_nodes_issues (twoLines ++ ")")
  constructor
  · have hread : (compile (standard true) twoLines).isOk = true := by decide +kernel
    have hrendered : reported (standard true) twoLines =
        ["ERROR: <input>:2:8: undeclared reference to 'y'\n | \t(size(y))\n | .......^",
          "ERROR: <input>:1:1: found no matching overload for '_+_' applied to '(string, int)'" ++
            "\n | 'é∀' +\n | ^"] := by
      decide +kernel
    unfold reported at hrendered
    cases hcompile : compile (standard true) twoLines with
    | error issues =>
      rw [hcompile] at hread
      cases hread
    | ok c =>
      -- The text is read, and the check finds the two issues.
      have hbind : Except.ok c >>= check (standard true) = check (standard true) c := rfl
      rw [hcompile, hbind] at hrendered
      cases hcheck : check (standard true) c with
      | ok c' =>
        rw [hcheck] at hrendered
        cases hrendered
      | error issues =>
        rw [hcheck] at hrendered
        exact ⟨c, issues, rfl, hcheck, hrendered, hnodes _ _ (compile_eq_ok hcompile).1,
          htypes _ _ _ _ hcompile hcheck⟩
  · have hread : (compile (standard true) (twoLines ++ ")")).isOk = false := by decide +kernel
    have hrendered : reported (standard true) (twoLines ++ ")") =
        ["ERROR: <input>:2:11: Syntax error: unexpected ')'\n | \t(size(y)))\n | ..........^"] := by
      decide +kernel
    unfold reported at hrendered
    cases hcompile : compile (standard true) (twoLines ++ ")") with
    | ok c =>
      rw [hcompile] at hread
      cases hread
    | error issues =>
      rw [hcompile] at hrendered
      exact ⟨issues, rfl, hrendered, hfault _ _ hcompile⟩

end Environment

end CelShell
