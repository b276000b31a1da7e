import AgentScript.Proofs.Reading.Progress.Productions

/-!
Contract: lists of statements that are read without diagnostics.

Owns:
- successions of statements, each of which is read and is separated from what follows it;
- that a list of statements that is read without diagnostics is such a succession;
- the succession of a script without diagnostics.
-/

set_option autoImplicit false

namespace AgentScript

/-- What is reported on a course is there at its end. -/
theorem State.Reaches.not_clean {state final : State} {diagnostic : Diagnostic}
    (course : (state.report diagnostic).Reaches final) : final.sink ≠ Sink.empty :=
  fun clean => Sink.push_ne_empty _ _ (course.sink_eq_empty clean)

namespace Production

/-- Statements read one after the other, up to the end of the list. Each ends before the end of the
list or before a new line. -/
inductive Succession (inBlock : Bool) (statement : Production Stmt) :
    State → List Stmt → State → Prop where
  | nil {state : State} :
      endsStatements inBlock state.kind = true → Succession inBlock statement state [] state
  | cons {state after final : State} {first : Stmt} {rest : List Stmt} :
      endsStatements inBlock state.kind = false → state.kind ≠ .semicolon →
      statement state = .ok first after →
      (endsStatements inBlock after.kind = true ∨ after.onNewLine = true) →
      Succession inBlock statement after rest final →
      Succession inBlock statement state (first :: rest) final

variable {inBlock : Bool} {statement : Production Stmt}

/-- A list of statements that goes on is before the end of the script. -/
theorem token_of_not_endsStatements {kind : Kind} (goesOn : endsStatements inBlock kind = false) :
    kind ≠ .endOfInput := by
  rintro rfl
  cases goesOn

theorem Succession.ends {state final : State} {list : List Stmt}
    (succession : Succession inBlock statement state list final) :
    endsStatements inBlock final.kind = true := by
  induction succession with
  | nil ends => exact ends
  | cons _ _ _ _ _ inductionHypothesis => exact inductionHypothesis

theorem Succession.noSemicolon {state final : State} {list : List Stmt}
    (succession : Succession inBlock statement state list final) : state.kind ≠ .semicolon := by
  cases succession with
  | nil ends =>
      intro semicolon
      rw [semicolon] at ends
      cases inBlock <;> cases ends
  | cons _ noSemicolon => exact noSemicolon

theorem Succession.reaches (proceeds : statement.Proceeds) {state final : State} {list : List Stmt}
    (succession : Succession inBlock statement state list final) : state.Reaches final := by
  induction succession with
  | nil => exact .refl _
  | cons _ _ read _ _ inductionHypothesis => exact (proceeds.of_ok read).trans inductionHypothesis

/-- Either a statement is separated from what follows it, or this is reported. -/
theorem checkSeparated_cases (inBlock : Bool) (state : State) :
    (checkSeparated inBlock state = state ∧ (endsStatements inBlock state.kind = true ∨
        state.kind = .semicolon ∨ state.onNewLine = true)) ∨
      ∃ diagnostic, checkSeparated inBlock state = state.report diagnostic := by
  unfold checkSeparated
  split
  · next separated =>
      refine .inl ⟨rfl, ?_⟩
      simpa [or_assoc] using separated
  · exact .inr ⟨_, rfl⟩

theorem succession_of_statementsWithin (proceeds : statement.Proceeds)
    (consumes : statement.Consumes) {bound : List Lexed} {state final : State} {list : List Stmt}
    (scanned : state.Scanned) (enough : state.upcoming.length ≤ bound.length)
    (run : statementsWithin inBlock statement bound state = (list, final))
    (clean : final.sink = Sink.empty) : Succession inBlock statement state list final := by
  induction bound generalizing state list with
  | nil =>
      have ended : state.kind = .endOfInput :=
        scanned.kind_eq_endOfInput_iff.2 (List.length_eq_zero_iff.1 (Nat.le_zero.1 enough))
      cases run
      exact .nil (by simp [endsStatements, ended])
  | cons _ bound inductionHypothesis =>
      have onward (next : State) := State.Reaches.statementsWithin proceeds inBlock bound next
      by_cases ends : endsStatements inBlock state.kind = true
      · rw [statementsWithin, if_pos ends] at run
        cases run
        exact .nil ends
      by_cases semicolon : state.kind = .semicolon
      · rw [statementsWithin, if_neg ends, if_pos semicolon] at run
        have course := (State.Reaches.refl (state.report
          (state.faultHere .semicolonSeparator))).advance.trans (onward _)
        rw [run] at course
        exact absurd clean course.not_clean
      rw [statementsWithin, if_neg ends, if_neg semicolon] at run
      cases read : statement state with
      | error diagnostic failed =>
          simp only [read] at run
          have course := (State.Reaches.recover state (failed.report_sink_ne_empty diagnostic)).trans
            (onward _)
          rw [run] at course
          exact absurd clean course.not_clean
      | ok first after =>
          simp only [read] at run
          have course := onward (checkSeparated inBlock after)
          have shorter := consumes state after first scanned read
          obtain ⟨unchanged, separated⟩ | ⟨diagnostic, reported⟩ :=
            checkSeparated_cases inBlock after
          · rw [unchanged] at run
            simp only [Prod.mk.injEq] at run
            obtain ⟨rfl, same⟩ := run
            have rest := inductionHypothesis (scanned.of_reaches (proceeds.of_ok read))
              (by simp only [List.length_cons] at enough; omega) (Prod.ext rfl same)
            refine .cons (Bool.eq_false_iff.2 ends) semicolon read ?_ rest
            rcases separated with ends | semicolon | fresh
            · exact .inl ends
            · -- a semicolon would be reported where the rest of the list starts
              exact absurd semicolon rest.noSemicolon
            · exact .inr fresh
          · rw [reported] at run course
            simp only [Prod.mk.injEq] at run
            rw [run.2] at course
            exact absurd clean course.not_clean

end Production

/-- A script is read as its statements one after the other. -/
theorem parse_eq (source : String) :
    parse source =
      (⟨(Production.statementsWithin false (Production.statement (Level.withRoom maxNesting))
          (State.ofSource source).upcoming (State.ofSource source)).1⟩,
        (Production.statementsWithin false (Production.statement (Level.withRoom maxNesting))
          (State.ofSource source).upcoming (State.ofSource source)).2.sink) :=
  rfl

/-- The statements of a script without diagnostics follow one another up to the end of the script,
where reading ends. -/
theorem succession_readProgram {source : String} (clean : (parse source).2.entries = []) :
    Production.Succession false (Production.statement (Level.withRoom maxNesting))
        (State.ofSource source) (parse source).1.statements (State.ofSource source).readProgram.2 ∧
      (State.ofSource source).readProgram.2.sink = Sink.empty ∧
      (State.ofSource source).readProgram.2.upcoming = [] := by
  have proceeds := Production.proceeds_statement_withRoom maxNesting
  have consumes := Production.consumes_statement_withRoom maxNesting
  have scanned := State.scanned_ofSource source
  have cleanFinal : (State.ofSource source).readProgram.2.sink = Sink.empty :=
    congrArg Sink.mk clean
  have succession := Production.succession_of_statementsWithin proceeds consumes scanned
    (Nat.le_refl _) rfl cleanFinal
  refine ⟨succession, cleanFinal, ?_⟩
  refine (scanned.of_reaches (succession.reaches proceeds)).kind_eq_endOfInput_iff.1 ?_
  simpa [Production.endsStatements] using succession.ends

/-- The statements of a script without diagnostics follow one another up to the end of the script.
-/
theorem parse_succession {source : String} (clean : (parse source).2.entries = []) :
    ∃ final, Production.Succession false (Production.statement (Level.withRoom maxNesting))
        (State.ofSource source) (parse source).1.statements final ∧
      final.sink = Sink.empty ∧ final.upcoming = [] :=
  ⟨_, succession_readProgram clean⟩

end AgentScript
