import AgentScript.Proofs.Reading.Extension.Productions
import AgentScript.Proofs.Reading.Mirror.Productions
import AgentScript.Proofs.Scan.Concatenation

/-!
Contract: the reading of two scripts with a line break between them.

Owns:
- a script that is read without diagnostics before a sequel, whether on new lines or not;
- the second script as the sequel of the first on the lines after it;
- the state that the first script leaves as the image of the start of the second;
- the program and the diagnostics of both together.
-/

set_option autoImplicit false

namespace AgentScript

/-! ## The first script -/

section

variable {first : String} (clean : (parse first).2.entries = [])

include clean in
/-- No token of a script without diagnostics has a fault. -/
theorem fault?_eq_none_of_clean :
    ∀ lexed ∈ (Cursor.ofSource first).scan.tokens, lexed.fault? = none := by
  obtain ⟨final, succession, cleanFinal, ended⟩ := parse_succession clean
  have course := succession.reaches
    (Production.proceeds_statement (Production.levelProceeds_withRoom maxNesting))
  have ahead : ∀ lexed ∈ (State.ofSource first).upcoming.take 2, lexed.fault? = none := by
    have faults : ((State.ofSource first).upcoming.take 2).filterMap Lexed.fault? = [] :=
      Sink.eq_nil_of_pushAll (course.sink_eq_empty cleanFinal)
    exact List.filterMap_eq_nil_iff.1 faults
  obtain ⟨passed, split, none⟩ := course.fault?_eq cleanFinal ahead
  rw [ended, List.append_nil] at split
  intro lexed member
  have inPassed : lexed ∈ passed := by
    rw [← split]
    exact member
  exact none lexed (List.mem_append_left _ inPassed)

/-- A succession that passes all tokens of a script without diagnostics leaves no bracket open. -/
theorem openBrackets_eq_nil {final : State} {list : List Stmt}
    (succession : Production.Succession false (Production.statement (Level.withRoom maxNesting))
      (State.ofSource first) list final)
    (cleanFinal : final.sink = Sink.empty) (ended : final.upcoming = []) :
    final.openBrackets = [] := by
  have proceeds := Production.proceeds_statement (Production.levelProceeds_withRoom maxNesting)
  have keeps := succession.keepsContent
    (Production.keepsContent_statement (Production.levelProceeds_withRoom maxNesting)
      (Production.levelKeeps_withRoom maxNesting)) proceeds (State.scanned_ofSource first) cleanFinal
  obtain ⟨used, ahead, balanced, _⟩ := keeps
  obtain ⟨passed, split, brackets⟩ := (succession.reaches proceeds).openBrackets_eq cleanFinal
  rw [ended, List.map_nil, List.append_nil] at ahead
  rw [ended, List.append_nil] at split
  rw [brackets, ← split, ahead, balanced.foldl_bracketsAfter]
  rfl

include clean in
/-- A script without diagnostics is read as if nothing followed it, and then what its last statement
is to be separated from is read. -/
theorem exists_run_before (sequel : Sequel) (lines : sequel.line = linesOf first)
    (leaves : ∀ last ∈ (parse first).1.statements.getLast?, sequel.Leaves last) :
    ∃ final, (State.ofSource first).Reaches final ∧ final.Precedes sequel ∧ final.upcoming = [] ∧
      final.openBrackets = [] ∧
      Production.statementsWithin false (Production.statement (Level.withRoom maxNesting))
          ((State.ofSource first).extended sequel).upcoming ((State.ofSource first).extended sequel) =
        let next := Production.separatedAfter false (parse first).1.statements (final.extended sequel)
        let onward := Production.statementsWithin false
          (Production.statement (Level.withRoom maxNesting)) next.upcoming next
        ((parse first).1.statements ++ onward.1, onward.2) := by
  have levelProceeds := Production.levelProceeds_withRoom maxNesting
  have levelConsumes := Production.levelConsumes_withRoom maxNesting
  have proceeds := Production.proceeds_statement levelProceeds
  have consumes := Production.consumes_statement levelProceeds levelConsumes
  have scanned := State.scanned_ofSource first
  obtain ⟨final, succession, cleanFinal, ended⟩ := parse_succession clean
  have course := succession.reaches proceeds
  have precedes : (State.ofSource first).Precedes sequel :=
    ⟨scanned, fault?_eq_none_of_clean clean, lines ▸ Cursor.endLine_le_linesOf, Nat.zero_le _⟩
  refine ⟨final, course, precedes.of_reaches course, ended,
    openBrackets_eq_nil succession cleanFinal ended, ?_⟩
  have bounded := succession.length_le proceeds consumes scanned
  have whole : ((State.ofSource first).extended sequel).upcoming =
      (State.ofSource first).upcoming ++ sequel.tokens := rfl
  have left : (final.extended sequel).upcoming = sequel.tokens := by
    change final.upcoming ++ sequel.tokens = sequel.tokens
    rw [ended, List.nil_append]
  have run := succession.statementsWithin_extended proceeds
    (Production.extends_statement levelProceeds levelConsumes
      (Production.levelExtends_withRoom sequel maxNesting)) precedes cleanFinal
    (fun last isLast => .inr (leaves last isLast))
    ((State.ofSource first).extended sequel).upcoming (by rw [whole, List.length_append]; omega)
  have onward := Production.reaches_separatedAfter false (parse first).1.statements
    (final.extended sequel)
  have enough : (final.extended sequel).upcoming.length ≤
      (((State.ofSource first).extended sequel).upcoming.drop
        (parse first).1.statements.length).length := by
    rw [whole, left, List.length_drop, List.length_append]
    omega
  rw [run]
  simp only
  rw [Production.statementsWithin_bound proceeds consumes
    ((precedes.of_reaches course).scanned_extended.of_reaches onward)
    (Nat.le_trans onward.upcoming_length_le enough) (Nat.le_refl _)]

include clean in
/-- A script without diagnostics is read as if nothing followed it, and then the lines after it are
read. -/
theorem exists_extended_run (sequel : FreshSequel) (lines : sequel.line = linesOf first) :
    ∃ final, (State.ofSource first).Reaches final ∧ final.upcoming = [] ∧ final.openBrackets = [] ∧
      Production.statementsWithin false (Production.statement (Level.withRoom maxNesting))
          ((State.ofSource first).extended sequel.toSequel).upcoming
          ((State.ofSource first).extended sequel.toSequel) =
        let onward := Production.statementsWithin false
          (Production.statement (Level.withRoom maxNesting)) (final.extended sequel.toSequel).upcoming
          (final.extended sequel.toSequel)
        ((parse first).1.statements ++ onward.1, onward.2) := by
  have ends : sequel.EndsStatements := .inr sequel.line_lt
  obtain ⟨final, course, precedes, ended, closed, run⟩ :=
    exists_run_before clean sequel.toSequel lines fun _ _ => .inl ends
  have last : final.kind = .endOfInput := precedes.scanned.kind_eq_endOfInput_iff.2 ended
  rw [Production.separatedAfter_eq (Production.checkSeparated_extended precedes (.inr ends)
    (.inl (by simp [Production.endsStatements, last])))] at run
  exact ⟨final, course, ended, closed, run⟩

end

/-! ## The second script -/

section

variable {first second : String}

/-- The first token ahead, or the end of input. -/
theorem headD_scan (cursor : Cursor) :
    cursor.scan.tokens.headD cursor.scan.ending = cursor.next.1 := by
  by_cases ended : cursor.next.1.token.kind = .endOfInput
  · rw [Cursor.scan_of_end ended]
    rfl
  · rw [Cursor.scan_of_token ended]
    rfl

theorem headD_mem_head?_tokenize (source : String) :
    ((Cursor.ofSource source).scan.tokens.headD (Cursor.ofSource source).scan.ending).token ∈
      (tokenize source).1.head? := by
  simp only [tokenize, Scan.allTokens]
  generalize (Cursor.ofSource source).scan = scan
  obtain ⟨tokens, ending⟩ := scan
  cases tokens <;> rfl

theorem headD_map_down (lines : Nat) (tokens : List Lexed) (ending : Lexed) :
    (tokens.map (Lexed.down lines)).headD (ending.down lines) = (tokens.headD ending).down lines := by
  cases tokens <;> rfl

theorem line_pos (source : String) :
    0 < ((Cursor.ofSource source).scan.tokens.headD
      (Cursor.ofSource source).scan.ending).token.position.line := by
  rw [headD_scan]
  exact (Cursor.ofSource source).line_le_next

/-- A script on the lines after another one. -/
def FreshSequel.ofSources (first second : String)
    (starts : ∀ token ∈ (tokenize second).1.head?, token.kind.continuesStatement = false) :
    FreshSequel where
  tokens := (Cursor.ofSource second).scan.tokens.map (Lexed.down (linesOf first))
  ending := (Cursor.ofSource second).scan.ending.down (linesOf first)
  line := linesOf first
  ending_kind := (Cursor.scan_ending (Cursor.ofSource second)).1
  kind_ne := by
    intro lexed member
    obtain ⟨token, inScan, rfl⟩ := List.mem_map.1 member
    exact Cursor.scan_tokens_kind_ne _ token inScan
  wellSpelled := by
    intro lexed member
    obtain ⟨token, inScan, rfl⟩ := List.mem_map.1 member
    exact Cursor.scan_wellSpelled _ token inScan
  starts := by
    rw [headD_map_down]
    exact starts ((Cursor.ofSource second).scan.tokens.headD _).token
      (headD_mem_head?_tokenize second)
  line_lt := by
    rw [headD_map_down]
    exact Nat.lt_add_of_pos_left (line_pos second)

theorem filterMap_fault?_down (lines : Nat) (tokens : List Lexed) :
    (tokens.map (Lexed.down lines)).filterMap Lexed.fault? =
      (tokens.filterMap Lexed.fault?).map (Diagnostic.moved (Position.down lines)) := by
  rw [List.filterMap_map, List.map_filterMap]
  rfl

/-- Tokens moved with their text are images of the tokens themselves. -/
theorem Position.Shifts.parallel {lines line imageLine : Nat} {move : Position → Position}
    (shifts : Shifts lines move) {ending : Lexed} {tokens : List Lexed}
    (fresh : imageLine < (tokens.headD ending).token.position.line + lines ↔
      line < (tokens.headD ending).token.position.line) :
    Parallel move ending (ending.shifted lines move) line imageLine tokens
      (tokens.map (Lexed.shifted lines move)) := by
  have mirrored {lexed : Lexed} {line imageLine : Nat}
      (fresh : imageLine < lexed.token.position.line + lines ↔ line < lexed.token.position.line) :
      lexed.Mirrored move line (lexed.shifted lines move) imageLine :=
    ⟨rfl, rfl, by rwa [← shifts.line] at fresh⟩
  induction tokens generalizing line imageLine with
  | nil => exact .nil (mirrored fresh)
  | cons lexed rest inductionHypothesis =>
      exact .cons (mirrored fresh) (inductionHypothesis Nat.add_lt_add_iff_right)

/-- Tokens further down are images of the tokens themselves. -/
theorem parallel_down {lines line imageLine : Nat} {ending : Lexed} {tokens : List Lexed}
    (fresh : imageLine < (tokens.headD ending).token.position.line + lines ↔
      line < (tokens.headD ending).token.position.line) :
    Parallel (Position.down lines) ending (ending.down lines) line imageLine tokens
      (tokens.map (Lexed.down lines)) :=
  (Position.shifts_down lines).parallel fresh

variable (starts : ∀ token ∈ (tokenize second).1.head?, token.kind.continuesStatement = false)

/-- Both scripts together start as the first one does, with the second after it. -/
theorem ofSource_concatenation
    (complete : ∀ lexed ∈ (Cursor.ofSource first).scan.tokens, lexed.fault? = none) :
    State.ofSource (first ++ "\n" ++ second) =
      (State.ofSource first).extended (FreshSequel.ofSources first second starts).toSequel := by
  rw [State.ofSource, Cursor.scan_concatenation second complete]
  exact State.ofScan_append complete (FreshSequel.ofSources first second starts).toSequel

/-- What the first script leaves is the start of the second one, further down. -/
theorem mirrored_concatenation {final : State} (course : (State.ofSource first).Reaches final)
    (ended : final.upcoming = []) (closed : final.openBrackets = []) :
    (State.ofSource second).Mirrored (.exact (Position.down_injective (linesOf first)))
      (final.extended (FreshSequel.ofSources first second starts).toSequel) where
  ahead := by
    change Parallel _ _ _ 0 final.lastLine _ (final.upcoming ++ _)
    rw [ended, List.nil_append]
    refine parallel_down ⟨fun _ => line_pos second, fun positive => ?_⟩
    have bounded : final.lastLine ≤ linesOf first := by
      rcases course.lastLine_eq with same | ⟨lexed, member, same⟩
      · rw [same]
        exact Nat.zero_le _
      · rw [same]
        exact Cursor.endLine_le_linesOf lexed member
    exact Nat.lt_of_le_of_lt bounded (Nat.lt_add_of_pos_left positive)
  openBrackets := closed
  nesting := course.nesting_eq
  sink := by
    change Sink.empty.pushAll ((((Cursor.ofSource second).scan.tokens.map _).take
      (2 - final.upcoming.length)).filterMap Lexed.fault?) = _
    rw [ended, ← List.map_take, filterMap_fault?_down]
    exact Sink.pushAll_moved (Position.down_injective _) Sink.empty _

end

/-- A script without diagnostics and, on the lines after it, a script that does not continue its
last statement hold the statements of the one and then those of the other. What is wrong with the
second script is wrong with both together. -/
theorem parse_concatenation (first second : String) (clean : (parse first).2.entries = [])
    (starts : ∀ token ∈ (tokenize second).1.head?, token.kind.continuesStatement = false) :
    (parse (first ++ "\n" ++ second)).1.statements =
        (parse first).1.statements ++
          ((parse second).1.moved (Position.down (linesOf first))).statements ∧
      (parse (first ++ "\n" ++ second)).2.entries =
        (parse second).2.entries.map (Diagnostic.moved (Position.down (linesOf first))) := by
  obtain ⟨final, course, ended, closed, run⟩ :=
    exists_extended_run clean (.ofSources first second starts) rfl
  have mirrored := mirrored_concatenation starts course ended closed
  obtain ⟨sameStatements, mirroredLast⟩ := Production.statementsWithin_mirrored
    (Production.mirrors_statement (Production.levelMirrors_withRoom maxNesting)) false
    mirrored.ahead.length_eq mirrored
  rw [parse_eq (first ++ "\n" ++ second),
    ofSource_concatenation starts (fault?_eq_none_of_clean clean), run]
  constructor
  · simp only [sameStatements, Program.moved, mapTokensOfStmts_eq_map, parse_eq second]
  · exact congrArg Sink.entries mirroredLast.sink

/-- A parenthesis on a new line is no call, and its fault is that of the second script alone. -/
theorem parse_concatenation_parenthesis :
    (parse "(2").2.entries ≠ [] ∧
      (parse ("x = f" ++ "\n" ++ "(2")).1.statements =
        (parse "x = f").1.statements ++
          ((parse "(2").1.moved (Position.down (linesOf "x = f"))).statements ∧
      (parse ("x = f" ++ "\n" ++ "(2")).2.entries =
        (parse "(2").2.entries.map (Diagnostic.moved (Position.down (linesOf "x = f"))) := by
  have clean : (parse "x = f").2.entries = [] := by decide +kernel
  have starts : ∀ token ∈ (tokenize "(2").1.head?, token.kind.continuesStatement = false := by
    decide +kernel
  exact ⟨by decide +kernel, parse_concatenation "x = f" "(2" clean starts⟩

end AgentScript
