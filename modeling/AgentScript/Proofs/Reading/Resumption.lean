import AgentScript.Proofs.Reading.Ahead
import AgentScript.Proofs.Reading.Concatenation
import AgentScript.Proofs.Reading.Confinement.Productions
import AgentScript.Proofs.Reading.Diagnosis

/-!
Contract: the reading of a script after a line that may not be read.

Owns:
- the border between a line and the script on the lines after it;
- the state at the border, as an image of the start of that script;
- the statements and the diagnostics of the script among those of both together.

The line may be anything that is no reason to look for its end further down: its literals are closed,
its brackets are closed in order, and of these only parentheses and square brackets are left open.
-/

set_option autoImplicit false

namespace AgentScript

/-- The image holds the text of every diagnostic that the sink holds, and may hold more. -/
def Recording.among (move : Position → Position) : Recording move where
  Related sink image := ∀ entry ∈ sink.entries, image.holds (entry.moved move) = true
  push {sink image} diagnostic related entry member := by
    rcases Sink.mem_push member with recorded | rfl
    · exact Sink.holds_mono (Sink.prefix_push image _) (related entry recorded)
    · exact Sink.holds_push_self image _

/-- The faults of the two tokens in view are recorded. -/
def State.Viewed (state : State) : Prop :=
  ∀ lexed ∈ state.upcoming.take 2, ∀ diagnostic ∈ lexed.fault?, state.sink.holds diagnostic = true

theorem State.viewed_ofSource (source : String) : (State.ofSource source).Viewed :=
  fun lexed inView _ fault =>
    Sink.holds_pushAll Sink.empty (List.mem_filterMap.2 ⟨lexed, inView, fault⟩)

theorem State.Viewed.advance {state : State} (viewed : state.Viewed) : state.advance.Viewed := by
  obtain ⟨upcoming, ending, lastLine, openBrackets, nesting, sink⟩ := state
  match upcoming with
  | [] => exact viewed
  | [_] => exact fun lexed member => nomatch member
  | [_, second] =>
      intro lexed member
      exact viewed lexed (List.mem_cons_of_mem _ member)
  | first :: second :: third :: rest =>
      intro lexed member diagnostic fault
      change (sink.pushOption third.fault?).holds diagnostic = true
      have inView : lexed = second ∨ lexed = third := by simpa [State.advance] using member
      rcases inView with rfl | rfl
      · exact Sink.holds_mono (Sink.prefix_pushOption sink _)
          (viewed lexed (by simp) diagnostic fault)
      · rw [Option.mem_def.1 fault]
        exact Sink.holds_push_self sink diagnostic

theorem State.Reaches.viewed {start state : State} (course : start.Reaches state)
    (viewed : start.Viewed) : state.Viewed := by
  induction course with
  | refl => exact viewed
  | advance _ inductionHypothesis => exact (inductionHypothesis viewed).advance
  | report _ _ inductionHypothesis =>
      intro lexed inView diagnostic fault
      exact Sink.holds_mono (Sink.prefix_push _ _)
        (inductionHypothesis viewed lexed inView diagnostic fault)
  | closeTo _ _ _ inductionHypothesis => exact inductionHypothesis viewed
  | nested _ _ outer inner => exact inner (outer viewed)

/-! ## The line -/

/-- The tokens of a line, enclosed in it. -/
theorem enclosed_of_leftOpen? {line : Nat} {openBrackets opened : List Kind} {tokens : List Lexed}
    (inOrder : leftOpen? openBrackets (tokens.map Lexed.token) = some opened)
    (noCurly : .openCurly ∉ opened)
    (kinds : ∀ lexed ∈ tokens, lexed.token.kind ≠ .endOfInput)
    (lines : ∀ lexed ∈ tokens, lexed.token.position.line ≤ line ∧ lexed.endLine = line)
    (last : ∀ lexed ∈ tokens.getLast?, lexed.token.kind.admitsKeyword = false) :
    Enclosed line openBrackets tokens := by
  induction tokens generalizing openBrackets with
  | nil =>
      obtain rfl : openBrackets = opened := Option.some.inj inOrder
      exact .nil noCurly
  | cons lexed rest inductionHypothesis =>
      obtain ⟨after, step, inOrderRest⟩ := leftOpen?_cons_eq_some_iff.1 inOrder
      obtain ⟨starts, ends⟩ := lines lexed List.mem_cons_self
      refine .cons step (kinds lexed List.mem_cons_self) starts ends (fun admits none => ?_)
        (inductionHypothesis inOrderRest
          (fun other member => kinds other (List.mem_cons_of_mem _ member))
          (fun other member => lines other (List.mem_cons_of_mem _ member))
          fun other isLast => last other ?_)
      · subst none
        rw [last lexed rfl] at admits
        cases admits
      · rw [List.getLast?_cons, Option.mem_def.1 isLast]
        rfl

section

variable {line : String}

theorem linesOf_of_single (single : '\n' ∉ line.toList) : linesOf line = 1 := by
  rw [linesOf, List.count_eq_zero_of_not_mem single]

/-- The tokens of a single line start and end on it. -/
theorem lines_of_single (single : '\n' ∉ line.toList) :
    ∀ lexed ∈ (Cursor.ofSource line).scan.tokens,
      lexed.token.position.line ≤ 1 ∧ lexed.endLine = 1 := by
  intro lexed member
  have upper := Cursor.endLine_le_linesOf lexed member
  have order := Cursor.scan_line_le_endLine _ lexed member
  have lower : 1 ≤ lexed.token.position.line := by
    have inTokens : lexed.token ∈ (Cursor.ofSource line).scan.allTokens :=
      List.mem_map_of_mem (List.mem_append_left _ member)
    rcases Cursor.eq_or_before_scan _ _ inTokens with same | before
    · exact (congrArg Position.line same).le
    · rcases before with above | ⟨same, _⟩
      · exact above.le
      · exact same.le
  rw [linesOf_of_single single] at upper
  omega

end

/-! ## The border -/

/-- A script whose first token is a keyword that starts a statement and is no key. -/
def StartsFresh (source : String) : Prop :=
  ∃ first second rest, (tokenize source).1 = first :: second :: rest ∧
    first.kind.startsStatement = true ∧ second.kind ≠ .colon

/-- The first token of a script that starts fresh, and what the border needs to know of the second. -/
theorem StartsFresh.exists_tokens {source : String} (fresh : StartsFresh source) :
    ∃ first more, (Cursor.ofSource source).scan.tokens = first :: more ∧
      first.token.kind.startsStatement = true ∧
      (more.headD (Cursor.ofSource source).scan.ending).token.kind ≠ .colon := by
  obtain ⟨first, second, rest, tokens, starts, noColon⟩ := fresh
  simp only [tokenize, Scan.allTokens] at tokens
  generalize (Cursor.ofSource source).scan = scan at tokens
  obtain ⟨lexedTokens, ending⟩ := scan
  cases lexedTokens with
  | nil => simp at tokens
  | cons lexed more =>
      simp only [List.cons_append, List.map_cons, List.cons.injEq] at tokens
      obtain ⟨rfl, tokens⟩ := tokens
      refine ⟨lexed, more, rfl, starts, ?_⟩
      cases more with
      | nil =>
          simp only [List.nil_append, List.map_cons, List.cons.injEq] at tokens
          exact tokens.1 ▸ noColon
      | cons next more =>
          simp only [List.cons_append, List.map_cons, List.cons.injEq] at tokens
          exact tokens.1 ▸ noColon

section

variable {line next : String} {first : Lexed} {more : List Lexed}

/-- The border between a line and a script on the lines after it. -/
def Border.between (line : String) (tokens : (Cursor.ofSource next).scan.tokens = first :: more)
    (starts : first.token.kind.startsStatement = true)
    (noColon : (more.headD (Cursor.ofSource next).scan.ending).token.kind ≠ .colon) : Border where
  line := 1
  total := (State.ofSource (line ++ "\n" ++ next)).upcoming.length
  first := first.down 1
  more := more.map (Lexed.down 1)
  ending := (Cursor.ofSource next).scan.ending.down 1
  starts := starts
  below := by
    have positive := line_pos next
    rw [tokens] at positive
    exact Nat.lt_add_of_pos_left positive
  noKey := by
    rw [headD_map_down]
    exact noColon

variable (tokens : (Cursor.ofSource next).scan.tokens = first :: more)
  (starts : first.token.kind.startsStatement = true)
  (noColon : (more.headD (Cursor.ofSource next).scan.ending).token.kind ≠ .colon)

/-- Both together start in front of the border. -/
theorem confined_ofSource (single : '\n' ∉ line.toList) (complete : (tokenize line).2.entries = [])
    (inOrder : ∃ opened, leftOpen? [] (tokenize line).1 = some opened ∧ .openCurly ∉ opened)
    (last : ∀ token ∈ (tokenize line).1.dropLast.getLast?, token.kind.admitsKeyword = false) :
    (State.ofSource (line ++ "\n" ++ next)).Confined
      (.between line tokens starts noColon) := by
  have scan := Cursor.scan_concatenation next (fault?_eq_none_of_tokenize complete)
  rw [linesOf_of_single single, tokens] at scan
  have ending := Cursor.scan_ending (Cursor.ofSource line)
  obtain ⟨opened, inOrder, noCurly⟩ := inOrder
  have split : (tokenize line).1 = (Cursor.ofSource line).scan.tokens.map Lexed.token ++
      [(Cursor.ofSource line).scan.ending.token] := List.map_append
  -- the end of input is no bracket
  have inOrderLine : leftOpen? [] ((Cursor.ofSource line).scan.tokens.map Lexed.token) =
      some opened := by
    rw [split, leftOpen?_append] at inOrder
    obtain ⟨left, before, rest⟩ := Option.bind_eq_some_iff.1 inOrder
    obtain ⟨after, step, same⟩ := leftOpen?_cons_eq_some_iff.1 rest
    rw [Kind.bracketsInOrder?_of_plain (by rw [ending.1]; rfl)] at step
    rw [before, step]
    exact same
  have lastLine : ∀ lexed ∈ (Cursor.ofSource line).scan.tokens.getLast?,
      lexed.token.kind.admitsKeyword = false := by
    intro lexed isLast
    refine last lexed.token ?_
    rw [split, List.dropLast_concat, List.getLast?_map, Option.mem_def.1 isLast]
    rfl
  refine ⟨?_, ⟨(Cursor.ofSource line).scan.tokens, ?_, enclosed_of_leftOpen? inOrderLine noCurly
    (Cursor.scan_tokens_kind_ne _) (lines_of_single single) lastLine⟩, Nat.zero_le _, Nat.le_refl _,
    fun shorter => absurd shorter (Nat.lt_irrefl _)⟩
  · exact congrArg Scan.ending scan
  · exact congrArg Scan.tokens scan

/-- The state at the border is an image of the start of the script after it. -/
theorem mirrored_border {final : State}
    (course : (State.ofSource (line ++ "\n" ++ next)).Reaches final)
    (confined : final.Confined (.between line tokens starts noColon))
    (ahead : final.upcoming = (Border.between line tokens starts noColon).rest)
    (closed : final.openBrackets = []) :
    (State.ofSource next).Mirrored (.among (Position.down 1)) final where
  ahead := by
    have downEnding : final.ending = (State.ofSource next).ending.down 1 := confined.ending
    have downTokens : final.upcoming = (State.ofSource next).upcoming.map (Lexed.down 1) := by
      rw [ahead]
      exact congrArg (List.map (Lexed.down 1)) tokens.symm
    rw [downEnding, downTokens]
    exact parallel_down ⟨fun _ => line_pos next, fun positive =>
      Nat.lt_of_le_of_lt confined.notBelow (Nat.lt_add_of_pos_left positive)⟩
  openBrackets := closed
  nesting := course.nesting_eq
  sink := by
    intro entry member
    rcases Sink.mem_pushAll member with none | fault
    · cases none
    · obtain ⟨lexed, inView, isFault⟩ := List.mem_filterMap.1 fault
      refine course.viewed (State.viewed_ofSource _) (lexed.down 1) ?_ _
        (congrArg (Option.map (Diagnostic.moved (Position.down 1))) isFault)
      rw [ahead]
      change _ ∈ ((first :: more).map (Lexed.down 1)).take 2
      rw [← List.map_take, ← tokens]
      exact List.mem_map_of_mem inView

end

/-- The tokens of a script on the line after a complete one are tokens of both together. -/
theorem moved_mem_tokenize {line next : String} (single : '\n' ∉ line.toList)
    (complete : (tokenize line).2.entries = []) {token : Token} (member : token ∈ (tokenize next).1) :
    token.moved (Position.down 1) ∈ (tokenize (line ++ "\n" ++ next)).1 := by
  have scan := Cursor.scan_concatenation next (fault?_eq_none_of_tokenize complete)
  rw [linesOf_of_single single] at scan
  obtain ⟨lexed, inScan, rfl⟩ := List.mem_map.1 member
  refine List.mem_map.2 ⟨lexed.down 1, ?_, rfl⟩
  rw [scan]
  rcases List.mem_append.1 inScan with inTokens | isLast
  · exact List.mem_append_left _ (List.mem_append_right _ (List.mem_map_of_mem inTokens))
  · rw [List.mem_singleton.1 isLast]
    exact List.mem_append_right _ (List.mem_singleton_self _)

/-- Wherever the reading of a line fails, this costs no statement and no diagnostic of a script on the
lines after it. -/
theorem parse_after_line (line next : String) (single : '\n' ∉ line.toList)
    (complete : (tokenize line).2.entries = [])
    (inOrder : ∃ opened, leftOpen? [] (tokenize line).1 = some opened ∧ .openCurly ∉ opened)
    (last : ∀ token ∈ (tokenize line).1.dropLast.getLast?, token.kind.admitsKeyword = false)
    (fresh : StartsFresh next) :
    ((parse next).1.moved (Position.down 1)).statements <:+
        (parse (line ++ "\n" ++ next)).1.statements ∧
      ∀ entry ∈ (parse next).2.entries,
        entry.moved (Position.down 1) ∈ (parse (line ++ "\n" ++ next)).2.entries := by
  obtain ⟨first, more, tokens, starts, noColon⟩ := fresh.exists_tokens
  have levelProceeds := Production.levelProceeds_withRoom maxNesting
  obtain ⟨list, final, course, confined, ahead, closed, run⟩ :=
    Production.runsToBorder
      (Production.staysFromInside_statement (Production.levelStays_withRoom _ maxNesting))
      (Production.proceeds_statement levelProceeds)
      (Production.consumes_statement levelProceeds (Production.levelConsumes_withRoom maxNesting))
      (State.scanned_ofSource _)
      (confined_ofSource tokens starts noColon single complete inOrder last) rfl (Nat.le_refl _)
  have mirrored := mirrored_border tokens starts noColon course confined ahead closed
  obtain ⟨sameStatements, mirroredLast⟩ := Production.statementsWithin_mirrored
    (Production.mirrors_statement (Production.levelMirrors_withRoom maxNesting)) false
    mirrored.ahead.length_eq mirrored
  have whole := parse_eq (line ++ "\n" ++ next)
  rw [run] at whole
  constructor
  · refine ⟨list, ?_⟩
    rw [whole]
    simp only [sameStatements, Program.moved, mapTokensOfStmts_eq_map, parse_eq next]
  · intro entry member
    have recorded := mirroredLast.sink entry member
    obtain ⟨other, otherMember, sameText⟩ := Sink.holds_iff.1 recorded
    have inWhole : other ∈ (parse (line ++ "\n" ++ next)).2.entries := by
      rw [whole]
      exact otherMember
    obtain ⟨token, inNext, about⟩ := parse_aboutOneOf next entry member
    have same : other = entry.moved (Position.down 1) :=
      (parse_aboutOneOf _ other inWhole).eq_of_text_eq
        ⟨_, moved_mem_tokenize single complete inNext, about.moved _⟩ sameText
    rw [← same]
    exact inWhole

/-- A line that fails with a parenthesis left open, and a loop after it that fails too. -/
theorem parse_after_line_unclosed :
    ((parse "while (x) \x7b\x7d\nbreak 1").1.moved (Position.down 1)).statements <:+
        (parse ("f(1, [2" ++ "\n" ++ "while (x) \x7b\x7d\nbreak 1")).1.statements ∧
      ∀ entry ∈ (parse "while (x) \x7b\x7d\nbreak 1").2.entries,
        entry.moved (Position.down 1) ∈
          (parse ("f(1, [2" ++ "\n" ++ "while (x) \x7b\x7d\nbreak 1")).2.entries := by
  have inOrder : ∃ opened, leftOpen? [] (tokenize "f(1, [2").1 = some opened ∧
      .openCurly ∉ opened :=
    ⟨[.openBracket, .openParen], by decide +kernel, by decide⟩
  have fresh : StartsFresh "while (x) \x7b\x7d\nbreak 1" :=
    ⟨⟨.keyword .whileKw, "while", ⟨1, 1⟩⟩, ⟨.openParen, "(", ⟨1, 7⟩⟩,
      (tokenize "while (x) \x7b\x7d\nbreak 1").1.drop 2, by decide +kernel, rfl, by decide⟩
  exact parse_after_line _ _ (by decide +kernel) (by decide +kernel) inOrder (by decide +kernel) fresh

end AgentScript
