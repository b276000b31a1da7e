import AgentScript.Proofs.Reading.Lines
import AgentScript.Proofs.Reading.Recovery
import AgentScript.Proofs.Reading.Separation

/-!
Contract: a failed statement on a line of its own.

Owns:
- what skipping leaves when the tokens up to a new line close all brackets;
- that a statement outside all brackets which fails on its own line, with its brackets answering one
  another, costs that line and nothing else.
-/

set_option autoImplicit false

namespace AgentScript

/-- The token stands on the line, ends there, and has no fault. -/
structure Lexed.OnLine (line : Nat) (lexed : Lexed) : Prop where
  token : lexed.token.kind ≠ .endOfInput
  starts : lexed.token.position.line = line
  ends : lexed.endLine = line

/-- Passing a token does not change the sink when no token ahead has a fault. -/
theorem State.advance_of_faultless {state : State} {lexed : Lexed} {rest : List Lexed}
    (ahead : state.upcoming = lexed :: rest) (faultless : ∀ lexed ∈ rest, lexed.fault? = none) :
    state.advance =
      { state with
        upcoming := rest
        lastLine := lexed.endLine
        openBrackets := lexed.token.kind.bracketsAfter state.openBrackets } := by
  have noFault : rest[1]?.bind Lexed.fault? = none := by
    cases second : rest[1]? with
    | none => rfl
    | some lexed => exact faultless lexed (List.mem_of_getElem? second)
  rw [State.advance_of_cons ahead, noFault]
  rfl

/-- After the tokens of a line, the last line is that one. -/
theorem State.Reaches.lastLine_eq_of_onLine {line : Nat} {start state : State} {passed : List Lexed}
    (course : start.Reaches state) (split : start.upcoming = passed ++ state.upcoming)
    (nonempty : passed ≠ []) (onLine : ∀ lexed ∈ passed, lexed.OnLine line) :
    state.lastLine = line := by
  obtain ⟨same, splitAgain, lastLine⟩ := course.exists_passed
  obtain rfl : same = passed := List.append_cancel_right (splitAgain.symm.trans split)
  rw [lastLine, ← List.dropLast_concat_getLast nonempty, List.foldl_append]
  exact (onLine _ (List.getLast_mem nonempty)).ends

namespace Production

/-- Skipping at the outermost depth passes the rest of a line that leaves no bracket open, and stops
at the line after it. -/
theorem skipWithin_line {line : Nat} {later rest bound : List Lexed} {next : Lexed} {state : State}
    (ahead : state.upcoming = later ++ next :: rest)
    (faultless : ∀ lexed ∈ state.upcoming, lexed.fault? = none)
    (onLine : ∀ lexed ∈ later, lexed.OnLine line) (lastLine : state.lastLine = line)
    (fresh : line < next.token.position.line)
    (closes : (later.map Lexed.token).foldl
      (fun openBrackets token => token.kind.bracketsAfter openBrackets) state.openBrackets = [])
    (enough : later.length < bound.length) :
    skipWithin 0 bound state =
      { state with upcoming := next :: rest, lastLine := line, openBrackets := [] } := by
  induction later generalizing bound state with
  | nil =>
      obtain ⟨_, bound, rfl⟩ := List.exists_cons_of_length_pos enough
      have outside : state.openBrackets = [] := closes
      have isFresh : state.onNewLine = true := by
        simpa [State.onNewLine, State.current_of_upcoming ahead, lastLine] using fresh
      have same : { state with upcoming := next :: rest, lastLine := line, openBrackets := [] } =
          state := by
        rw [← outside, ← lastLine, ← List.nil_append (next :: rest), ← ahead]
      rw [skipWithin, same, isFresh]
      simp [State.depth, outside]
  | cons lexed later inductionHypothesis =>
      cases bound with
      | nil => cases enough
      | cons head bound =>
      obtain ⟨here, onLineRest⟩ := List.forall_mem_cons.1 onLine
      have notFresh : state.onNewLine = false := by
        simp [State.onNewLine, State.current_of_upcoming ahead, lastLine, here.starts]
      have faultlessRest : ∀ lexed ∈ later ++ next :: rest, lexed.fault? = none := fun lexed member =>
        faultless lexed (by rw [ahead]; exact List.mem_cons_of_mem _ member)
      have passed := State.advance_of_faultless ahead faultlessRest
      have goesOn : skipWithin 0 (head :: bound) state = skipWithin 0 bound state.advance := by
        rw [skipWithin, if_neg (by rw [State.kind_of_upcoming ahead]; exact here.token)]
        simp [startsFreshStatement, notFresh]
      have upcoming : state.advance.upcoming = later ++ next :: rest :=
        State.advance_upcoming_of ahead
      rw [goesOn, inductionHypothesis upcoming (by rwa [upcoming]) onLineRest
        ((State.advance_lastLine_of ahead).trans here.ends)
        (by rwa [State.advance_openBrackets_of ahead]) (Nat.lt_of_succ_lt_succ enough), passed]

/-- A statement outside all brackets that fails on its own line costs that line only, if the brackets
of the line answer one another. -/
theorem recover_line {line : Nat} {start failed : State} {diagnostic : Diagnostic}
    {passed later rest : List Lexed} {next : Lexed} (course : start.Reaches failed)
    (ahead : start.upcoming = passed ++ (later ++ next :: rest))
    (failedAhead : failed.upcoming = later ++ next :: rest) (nonempty : passed ≠ [])
    (faultless : ∀ lexed ∈ start.upcoming, lexed.fault? = none) (clean : failed.sink = Sink.empty)
    (onLine : ∀ lexed ∈ passed ++ later, lexed.OnLine line)
    (fresh : line < next.token.position.line) (outside : start.openBrackets = [])
    (balanced : Balanced ((passed ++ later).map Lexed.token)) :
    recover start (failed.report diagnostic) =
      { start with
        upcoming := next :: rest
        lastLine := line
        sink := ⟨[diagnostic]⟩ } := by
  have moved : failed.upcoming.length ≠ start.upcoming.length := by
    have positive := List.length_pos_iff.2 nonempty
    rw [ahead, ← failedAhead, List.length_append]
    omega
  have passes : start.upcoming = passed ++ failed.upcoming := by rw [ahead, failedAhead]
  have lastLine := course.lastLine_eq_of_onLine passes nonempty fun lexed member =>
    onLine lexed (List.mem_append_left _ member)
  have closes : (later.map Lexed.token).foldl
      (fun openBrackets token => token.kind.bracketsAfter openBrackets) failed.openBrackets = [] := by
    obtain ⟨same, split, brackets⟩ := course.openBrackets_eq clean
    obtain rfl : same = passed := List.append_cancel_right (split.symm.trans passes)
    rw [brackets, ← List.foldl_append, ← List.map_append, outside]
    exact balanced.foldl_bracketsAfter []
  have depth : start.depth = 0 := by simp [State.depth, outside]
  have faultlessFailed : ∀ lexed ∈ failed.upcoming, lexed.fault? = none := fun lexed member =>
    faultless lexed (course.upcoming_suffix.subset member)
  have skipped := @skipWithin_line line later rest failed.upcoming next (failed.report diagnostic)
    failedAhead faultlessFailed (fun lexed member => onLine lexed (List.mem_append_right _ member))
    lastLine fresh closes (by simp [failedAhead])
  have reported : (failed.report diagnostic).sink = ⟨[diagnostic]⟩ := by
    rw [State.report, clean]
    rfl
  have begins : recover start (failed.report diagnostic) =
      skipWithin 0 failed.upcoming (failed.report diagnostic) := by
    unfold recover
    rw [if_neg (by exact moved), depth]
    rfl
  rw [begins, skipped, reported, outside]
  simp only [State.report, course.ending_eq, course.nesting_eq]

end Production

end AgentScript
