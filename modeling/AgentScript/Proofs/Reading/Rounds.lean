import AgentScript.Proofs.Reading.Progress.Productions

/-!
Contract: lists of statements with recovery, as the rounds they are read in.

Owns:
- the rounds: a semicolon passed, a statement kept, a failed statement left out;
- that a list of statements is read in rounds, free of the bound that the definition carries, and
  that rounds stay on a course;
- that reading ends where a list of statements may end, and that of a whole script at its end.

`Succession` describes the lists that are read without diagnostics; rounds describe all of them.
-/

set_option autoImplicit false

namespace AgentScript

namespace Production

/-- The rounds that a list of statements is read in, and the statements that they keep. -/
inductive Rounds (inBlock : Bool) (statement : Production Stmt) :
    State → List Stmt → State → Prop where
  | ends {state : State} :
      endsStatements inBlock state.kind = true → Rounds inBlock statement state [] state
  | semicolon {state final : State} {list : List Stmt} :
      state.kind = .semicolon →
      Rounds inBlock statement (state.report (state.faultHere .semicolonSeparator)).advance list
        final →
      Rounds inBlock statement state list final
  | kept {state after final : State} {first : Stmt} {rest : List Stmt} :
      statement state = .ok first after →
      Rounds inBlock statement (checkSeparated inBlock after) rest final →
      Rounds inBlock statement state (first :: rest) final
  | failed {state failed final : State} {diagnostic : Diagnostic} {list : List Stmt} :
      statement state = .error diagnostic failed →
      Rounds inBlock statement (recover state (failed.report diagnostic)) list final →
      Rounds inBlock statement state list final

section

variable {inBlock : Bool} {statement : Production Stmt}

/-- Every round passes a token, so that the tokens ahead bound the number of rounds. -/
theorem statementsWithin_rounds (proceeds : statement.Proceeds) (consumes : statement.Consumes)
    {bound : List Lexed} {state : State} (scanned : state.Scanned)
    (enough : state.upcoming.length ≤ bound.length) :
    Rounds inBlock statement state (statementsWithin inBlock statement bound state).1
      (statementsWithin inBlock statement bound state).2 := by
  induction bound generalizing state with
  | nil =>
      have ended : state.kind = .endOfInput :=
        scanned.kind_eq_endOfInput_iff.2 (List.length_eq_zero_iff.1 (Nat.le_zero.1 enough))
      exact .ends (by simp [endsStatements, ended])
  | cons _ bound inductionHypothesis =>
      by_cases ends : endsStatements inBlock state.kind = true
      · rw [statementsWithin_of_ends ends]
        exact .ends ends
      have token : state.kind ≠ .endOfInput := by
        intro ended
        rw [ended] at ends
        exact ends rfl
      have rounds {next : State} (course : state.Reaches next)
          (shorter : next.upcoming.length < state.upcoming.length) :=
        inductionHypothesis (scanned.of_reaches course)
          (Nat.le_of_lt_succ (Nat.lt_of_lt_of_le shorter enough))
      unfold statementsWithin
      rw [if_neg ends]
      split
      · next semicolon =>
          exact .semicolon semicolon (rounds (.advance (.report _ (.refl state)))
            (scanned.report_advance_lt token _))
      · cases read : statement state with
        | ok first after =>
            have separated := State.Reaches.checkSeparated inBlock after
            exact .kept read (rounds ((proceeds.of_ok read).trans separated)
              (Nat.lt_of_le_of_lt separated.upcoming_length_le
                (consumes state after first scanned read)))
        | error diagnostic failed =>
            have course := proceeds state
            rw [read] at course
            have reported := failed.report_sink_ne_empty diagnostic
            exact .failed read (rounds ((course.report diagnostic).trans
              (State.Reaches.recover state reported))
              (recover_lt scanned token (course.report diagnostic) reported))

theorem Rounds.endsStatements {state final : State} {list : List Stmt}
    (rounds : Rounds inBlock statement state list final) :
    endsStatements inBlock final.kind = true := by
  induction rounds with
  | ends ends => exact ends
  | semicolon _ _ inductionHypothesis => exact inductionHypothesis
  | kept _ _ inductionHypothesis => exact inductionHypothesis
  | failed _ _ inductionHypothesis => exact inductionHypothesis

theorem Rounds.reaches (proceeds : statement.Proceeds) {state final : State} {list : List Stmt}
    (rounds : Rounds inBlock statement state list final) : state.Reaches final := by
  induction rounds with
  | ends => exact .refl _
  | semicolon _ _ inductionHypothesis =>
      exact .trans (.advance (.report _ (.refl _))) inductionHypothesis
  | kept read _ inductionHypothesis =>
      exact (proceeds.of_ok read).trans
        ((State.Reaches.checkSeparated inBlock _).trans inductionHypothesis)
  | @failed state failed _ diagnostic _ read _ inductionHypothesis =>
      have course := proceeds state
      rw [read] at course
      exact (course.report diagnostic).trans ((State.Reaches.recover state
        (failed.report_sink_ne_empty diagnostic)).trans inductionHypothesis)

end

/-- The rounds that a whole script is read in. -/
theorem readProgram_rounds {state : State} (scanned : state.Scanned) :
    Rounds false (Production.statement (Level.withRoom state.room)) state
      state.readProgram.1.statements state.readProgram.2 :=
  statementsWithin_rounds (proceeds_statement_withRoom _) (consumes_statement_withRoom _) scanned
    (Nat.le_refl _)

/-- The reading of a script passes all of its tokens, whatever is wrong with them. -/
theorem readProgram_upcoming {state : State} (scanned : state.Scanned) :
    state.readProgram.2.upcoming = [] := by
  have rounds := readProgram_rounds scanned
  have ends := rounds.endsStatements
  simp only [Production.endsStatements, Bool.false_and, Bool.or_false, decide_eq_true_eq] at ends
  have course := rounds.reaches (proceeds_statement_withRoom _)
  exact (scanned.of_reaches course).kind_eq_endOfInput_iff.1 ends

end Production

end AgentScript
