import AgentScript.Proofs.Reading.Progress.Productions
import AgentScript.Proofs.Token.InOrder

/-!
Contract: where reading resumes after a failed statement of a block.

Owns:
- the passing of a token whose brackets are closed in order;
- that skipping stops in front of the curly bracket of the block, if the brackets that the failed
  statement opened are closed before it;
- a script where they are not, which loses the block and what follows it.
-/

set_option autoImplicit false

namespace AgentScript

namespace State

variable {state : State} {lexed : Lexed} {rest : List Lexed}

theorem kind_of_upcoming (ahead : state.upcoming = lexed :: rest) :
    state.kind = lexed.token.kind := by
  rw [State.kind, State.current, ahead, List.headD_cons]

theorem current_of_upcoming (ahead : state.upcoming = lexed :: rest) :
    state.current = lexed.token := by
  rw [State.current, ahead, List.headD_cons]

theorem advance_upcoming_of (ahead : state.upcoming = lexed :: rest) :
    state.advance.upcoming = rest := by
  rw [State.Reaches.advance_upcoming, ahead, List.tail_cons]

theorem advance_lastLine_of (ahead : state.upcoming = lexed :: rest) :
    state.advance.lastLine = lexed.endLine := by
  unfold State.advance
  rw [ahead]

theorem advance_openBrackets_of (ahead : state.upcoming = lexed :: rest) :
    state.advance.openBrackets = lexed.token.kind.bracketsAfter state.openBrackets := by
  unfold State.advance
  rw [ahead]

/-- A token that closes brackets in order leaves those further out open. -/
theorem advance_openBrackets_append {inner after outer : List Kind}
    (ahead : state.upcoming = lexed :: rest) (brackets : state.openBrackets = inner ++ outer)
    (step : lexed.token.kind.bracketsInOrder? inner = some after) :
    state.advance.openBrackets = after ++ outer := by
  rw [advance_openBrackets_of ahead, brackets]
  exact Kind.bracketsAfter_eq (Kind.bracketsInOrder?_append outer step)

/-- The brackets opened since there were as many as further out are those further in. -/
theorem closeTo_openBrackets {inner outer : List Kind}
    (brackets : state.openBrackets = inner ++ outer) :
    (state.closeTo outer.length).openBrackets = outer := by
  change state.openBrackets.drop (state.openBrackets.length - outer.length) = outer
  rw [brackets, List.length_append, Nat.add_sub_cancel, List.drop_left]

theorem depth_of_openBrackets {inner outer : List Kind}
    (brackets : state.openBrackets = inner ++ outer) :
    state.depth = inner.length + outer.length := by
  rw [State.depth, brackets, List.length_append]

end State

namespace Production

/-- The place where reading resumes: in front of a curly bracket, and after all brackets that were
opened since. -/
def ResumesBefore (outer : List Kind) (within rest : List Lexed) (resumed : State) : Prop :=
  (∃ ahead, ahead <:+ within ∧ resumed.upcoming = ahead ++ rest) ∧ resumed.openBrackets = outer

theorem ResumesBefore.cons {outer : List Kind} {within rest : List Lexed} {resumed : State}
    (resumes : ResumesBefore outer within rest resumed) (lexed : Lexed) :
    ResumesBefore outer (lexed :: within) rest resumed := by
  obtain ⟨⟨left, suffix, upcoming⟩, brackets⟩ := resumes
  exact ⟨⟨left, suffix.trans (List.suffix_cons _ _), upcoming⟩, brackets⟩

/-- Skipping stops in front of a curly bracket that closes none of the brackets opened since. -/
theorem skipWithin_resumesBefore {outer inner : List Kind} {within rest bound : List Lexed}
    {closing : Lexed} {state : State} (inBrackets : outer ≠ [])
    (curly : closing.token.kind = .closeCurly)
    (tokens : ∀ lexed ∈ within, lexed.token.kind ≠ .endOfInput)
    (ahead : state.upcoming = within ++ closing :: rest)
    (brackets : state.openBrackets = inner ++ outer)
    (inOrder : leftOpen? inner (within.map Lexed.token) = some [])
    (enough : within.length < bound.length) :
    ResumesBefore outer within (closing :: rest) (skipWithin outer.length bound state) := by
  have positive : 0 < outer.length := List.length_pos_iff.2 inBrackets
  induction within generalizing inner bound state with
  | nil =>
      obtain ⟨head, bound, rfl⟩ := List.exists_cons_of_length_pos enough
      have closed : inner = [] := Option.some.inj inOrder
      subst closed
      have kind : state.kind = .closeCurly := by rw [State.kind_of_upcoming ahead, curly]
      have depth : state.depth = outer.length := by simpa using State.depth_of_openBrackets brackets
      have stops : skipWithin outer.length (head :: bound) state = state := by
        rw [skipWithin, if_neg (by simp [kind]), if_neg (by omega), if_pos (by simp [kind, positive])]
      rw [stops]
      exact ⟨⟨[], List.suffix_rfl, ahead⟩, brackets⟩
  | cons lexed within inductionHypothesis =>
      cases bound with
      | nil => cases enough
      | cons _ bound =>
      have token : state.kind ≠ .endOfInput := by
        rw [State.kind_of_upcoming ahead]
        exact tokens lexed List.mem_cons_self
      obtain ⟨after, step, inOrderRest⟩ := leftOpen?_cons_eq_some_iff.1 inOrder
      have passed : ResumesBefore outer (lexed :: within) (closing :: rest)
          (skipWithin outer.length bound state.advance) :=
        (inductionHypothesis (fun lexed member => tokens lexed (List.mem_cons_of_mem _ member))
          (State.advance_upcoming_of ahead) (State.advance_openBrackets_append ahead brackets step)
          inOrderRest (Nat.lt_of_succ_lt_succ enough)).cons lexed
      have here : state.upcoming = (lexed :: within) ++ closing :: rest := ahead
      rw [skipWithin, if_neg token]
      split_ifs with opened fresh stops
      · exact ⟨⟨_, List.suffix_rfl, here⟩, State.closeTo_openBrackets brackets⟩
      · exact passed
      · -- at the depth of the block nothing is open that was opened since
        have none : inner = [] := by
          have depth := State.depth_of_openBrackets brackets
          exact List.length_eq_zero_iff.1 (by omega)
        exact ⟨⟨_, List.suffix_rfl, here⟩, by rw [brackets, none, List.nil_append]⟩
      · exact passed

/-- Reading does not resume after the curly bracket of the block, if every bracket that the failed
statement opened and did not close is closed before that one. -/
theorem recover_resumes_in_block {room : Nat} {start failed : State} {diagnostic : Diagnostic}
    {inner : List Kind} {within rest : List Lexed} {closing : Lexed} (scanned : start.Scanned)
    (inBrackets : start.openBrackets ≠ [])
    (goesOn : endsStatements true start.kind = false)
    (fails : Production.statement (Level.withRoom room) start = .error diagnostic failed)
    (opened : failed.openBrackets = inner ++ start.openBrackets)
    (ahead : failed.upcoming = within ++ closing :: rest)
    (closed : leftOpen? inner (within.map Lexed.token) = some [])
    (curly : closing.token.kind = .closeCurly) :
    ResumesBefore start.openBrackets within (closing :: rest)
      (recover start (failed.report diagnostic)) := by
  have onward := proceeds_statement (levelProceeds_withRoom room) start
  rw [fails] at onward
  have tokens : ∀ lexed ∈ within, lexed.token.kind ≠ .endOfInput := fun lexed member =>
    (scanned.of_reaches onward).kind_ne lexed (ahead ▸ List.mem_append_left _ member)
  unfold recover
  split_ifs with same
  · -- nothing was passed, so the failed statement starts at the current token
    have unmoved : failed.upcoming = start.upcoming := onward.upcoming_suffix.eq_of_length same
    cases within with
    | nil =>
        have kind : start.kind = .closeCurly := by
          rw [State.kind_of_upcoming (unmoved ▸ ahead), curly]
        rw [kind] at goesOn
        cases goesOn
    | cons lexed within =>
        obtain ⟨after, step, inOrder⟩ := leftOpen?_cons_eq_some_iff.1 closed
        have here : (failed.report diagnostic).upcoming =
            lexed :: (within ++ closing :: rest) := ahead
        have brackets := State.advance_openBrackets_append here opened step
        have upcoming := State.advance_upcoming_of here
        have enough : within.length < (failed.report diagnostic).advance.upcoming.length := by
          rw [upcoming, List.length_append]
          simp
        exact (skipWithin_resumesBefore inBrackets curly
          (fun lexed member => tokens lexed (List.mem_cons_of_mem _ member)) upcoming brackets
          inOrder enough).cons lexed
  · have aheadReported : (failed.report diagnostic).upcoming = within ++ closing :: rest := ahead
    have enough : within.length < (failed.report diagnostic).upcoming.length := by
      rw [aheadReported, List.length_append]
      simp
    exact skipWithin_resumesBefore inBrackets curly tokens aheadReported opened closed enough

/-- The diagnostic that a production fails with, and the state where it fails. -/
def failure? {α : Type} : EStateM.Result Diagnostic State α → Option (Diagnostic × State)
  | .ok _ _ => none
  | .error diagnostic failed => some (diagnostic, failed)

theorem eq_error_of_failure? {α : Type} {result : EStateM.Result Diagnostic State α}
    {diagnostic : Diagnostic} {failed : State}
    (failing : failure? result = some (diagnostic, failed)) :
    result = .error diagnostic failed := by
  cases result with
  | ok value after => cases failing
  | error diagnostic failed =>
      cases failing
      rfl

/-- The state at the sixth token of a script, inside a block that starts before it. -/
def inBlockOf (source : String) : State :=
  { State.ofSource source with nesting := 1 }.advance.advance.advance.advance.advance

theorem scanned_inBlockOf (source : String) : (inBlockOf source).Scanned :=
  ((State.scanned_ofSource source).deeper 1).advance.advance.advance.advance.advance

/-- Reading fails at the second number and resumes in front of the bracket that closes the block. -/
theorem recover_resumes_after_parenthesis :
    let start := inBlockOf "if (x) \x7b\n  y = (1 2)\n\x7d"
    let within : List Lexed :=
      [⟨⟨.number, "2", ⟨2, 10⟩⟩, 2, none⟩, ⟨⟨.closeParen, ")", ⟨2, 11⟩⟩, 2, none⟩]
    let closing : Lexed := ⟨⟨.closeCurly, "\x7d", ⟨3, 1⟩⟩, 3, none⟩
    ∃ failed diagnostic,
      Production.statement (Level.withRoom 99) start = .error diagnostic failed ∧
        failed.openBrackets = [.openParen] ++ start.openBrackets ∧
        failed.upcoming = within ++ [closing] ∧
        ResumesBefore start.openBrackets within [closing]
          (recover start (failed.report diagnostic)) := by
  intro start within closing
  have failing : Production.statement (Level.withRoom 99) start =
      .error ⟨.unexpectedToken "')'" "number '2'", ⟨2, 10⟩⟩ start.advance.advance.advance.advance :=
    eq_error_of_failure? (by decide +kernel)
  have opened : start.advance.advance.advance.advance.openBrackets =
      [.openParen] ++ start.openBrackets := by decide +kernel
  have ahead : start.advance.advance.advance.advance.upcoming = within ++ [closing] := by
    decide +kernel
  exact ⟨_, _, failing, opened, ahead,
    recover_resumes_in_block (scanned_inBlockOf _) (by decide +kernel) (by decide +kernel) failing
      opened ahead (by decide +kernel) rfl⟩

/-- Where a bracket that the failed statement opened is still open at the end of the block, reading
resumes after the block: the block is lost, and the statement after it too. -/
theorem recover_leaves_block :
    let source := "if (x) \x7b\n  y = (\n\x7d\nz = 1"
    let start := inBlockOf source
    (∃ failed diagnostic,
        Production.statement (Level.withRoom 99) start = .error diagnostic failed ∧
          (recover start (failed.report diagnostic)).depth < start.depth) ∧
      (parse source).1.statements = [] := by
  intro source start
  have failing : Production.statement (Level.withRoom 99) start =
      .error ⟨.noPrefixForm "'\x7d'", ⟨3, 1⟩⟩ start.advance.advance.advance :=
    eq_error_of_failure? (by decide +kernel)
  exact ⟨⟨_, _, failing, by decide +kernel⟩, by decide +kernel⟩

end Production

end AgentScript
