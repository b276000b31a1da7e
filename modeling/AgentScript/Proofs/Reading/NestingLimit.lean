import AgentScript.Proofs.Reading.Canonical
import AgentScript.Proofs.Reading.Chain
import AgentScript.Proofs.Reading.NextLine
import AgentScript.Proofs.Tree.Openers

/-!
Contract: the limit of nesting is exact, and reading goes on after a statement that passes it.

Owns:
- a nest is read as its tree where there is room for its word of openers and the number inside;
- otherwise reading fails at the first token that is one level too far in, before anything else;
- the whole script with a nest on its first line and an assignment on its second.
-/

set_option autoImplicit false

namespace AgentScript

namespace Nests

variable {word : List Opener} {tokens : List Token} {tree : Expr}

/-- No nest starts with a closing bracket. -/
theorem exists_first (nests : Nests word tokens tree) :
    ∃ first more, tokens = first :: more ∧ first.kind ≠ .closeBracket := by
  cases nests with
  | number kind => exact ⟨_, _, rfl, by simp [kind]⟩
  | @cons opener _ opening _ _ _ kind =>
      refine ⟨_, _, rfl, ?_⟩
      rw [kind]
      cases opener <;> decide

end Nests

/-- Neither a closing bracket nor what follows it continues an expression. -/
theorem loose_closing {opener : Opener} {closing rest : List Token}
    (kinds : closing.map Token.kind = opener.closing.map Printed.kind) (loose : Loose rest) :
    Loose (closing ++ rest) := by
  cases closing with
  | nil => exact loose
  | cons token closing =>
      rintro _ ⟨⟩
      cases opener <;> first | cases kinds | skip
      all_goals
        rw [(List.cons.inj kinds).1]
        rfl

/-- Passing a token does not depend on the level of nesting. -/
theorem State.advance_deeper (state : State) (nesting : Nat) :
    { state with nesting := nesting }.advance = { state.advance with nesting := nesting } := by
  obtain ⟨upcoming, ending, lastLine, openBrackets, _, sink⟩ := state
  cases upcoming <;> rfl

namespace Production

variable {room : Nat} {power : BindingPower} {state : State} {rest : List Token}

/-- An expression is its operand where nothing continues it. -/
theorem expression_of_operand {left : Expr} {middle : State} (scanned : state.Scanned)
    (read : operand (Level.withRoom room) { state with nesting := state.nesting + 1 } =
      .ok left middle) (loose : middle.power = .default) :
    (Level.withRoom (room + 1)).expression power state =
      .ok left { middle with nesting := middle.nesting - 1 } := by
  have proceeds := levelProceeds_withRoom room
  refine deeper_ok_iff.2 ⟨middle, expressionAt_ok_iff.2 ⟨left, middle, read, ?_⟩, rfl⟩
  have scannedMiddle := (scanned.deeper (state.nesting + 1)).of_reaches
    ((proceeds_operand proceeds).of_ok read)
  have noTighter : ¬power < .default := Nat.not_lt_zero _
  refine (continued_run proceeds scannedMiddle left).trans ?_
  rw [loose, if_neg noTighter]

/-- What follows a token of the expected kind. -/
theorem expect_bind_run {α : Type} {kind : Kind} (here : state.kind = kind)
    (next : Token → Production α) :
    (expect kind >>= next) state = next state.current state.advance :=
  bind_run_of_ok (expectAs_ok_iff.2 ⟨here, rfl, rfl⟩)

/-- A number is an expression where nothing continues it. -/
theorem expression_number {value : Decimal} (scanned : state.Scanned) (kind : state.kind = .number)
    (isNumber : Decimal.ofText? state.current.value.toList = some value)
    (loose : state.advance.power = .default) :
    (Level.withRoom (room + 1)).expression power state =
      .ok (.number state.current value) state.advance := by
  have read : operand (Level.withRoom room) { state with nesting := state.nesting + 1 } =
      .ok (.number state.current value) { state with nesting := state.nesting + 1 }.advance := by
    have same : { state with nesting := state.nesting + 1 }.kind = .number := kind
    rw [operand_run, same]
    refine primary_ok_iff.2 ⟨?_, rfl⟩
    change tokenOperand? state.current = _
    rw [tokenOperand?, show state.current.kind = .number from kind, isNumber]
    rfl
  rw [State.advance_deeper] at read
  rw [expression_of_operand scanned read loose, Nat.add_sub_cancel,
    ← State.Reaches.advance_nesting state]

/-! ## Enough room -/

/-- The operand that a nest is, one level further in. -/
theorem operand_nest {opener : Opener} {opening : Token} {inside closing : List Token} {tree : Expr}
    (openingKind : opening.kind = opener.kind)
    (closingKinds : closing.map Token.kind = opener.closing.map Printed.kind)
    (first : ∃ token more, inside = token :: more ∧ token.kind ≠ .closeBracket)
    (ahead : state.Ahead (opening :: (inside ++ closing) ++ rest))
    (read : ∀ power, ∃ middle, (Level.withRoom room).expression power state.advance = .ok tree middle ∧
      middle.Ahead (closing ++ rest)) :
    ∃ after, operand (Level.withRoom room) state = .ok (opener.wrap opening tree) after ∧
      after.Ahead rest := by
  have kind : state.kind = opener.kind := ahead.kind.trans openingKind
  rw [operand_run, kind]
  cases opener with
  | paren =>
      obtain ⟨closer, rfl⟩ : ∃ closer, closing = [closer] := by
        simpa [Opener.closing, List.length_eq_one_iff] using congrArg List.length closingKinds
      have closerKind := (List.cons.inj closingKinds).1
      obtain ⟨middle, readInside, aheadMiddle⟩ := read .default
      exact ⟨middle.advance, grouping_ok_iff.2
        ⟨kind, middle, readInside, aheadMiddle.kind.trans closerKind, rfl⟩, aheadMiddle.advance⟩
  | bracket =>
      obtain ⟨closer, rfl⟩ : ∃ closer, closing = [closer] := by
        simpa [Opener.closing, List.length_eq_one_iff] using congrArg List.length closingKinds
      have closerKind := (List.cons.inj closingKinds).1
      obtain ⟨middle, readInside, aheadMiddle⟩ := read .default
      have atClosing : middle.kind = .closeBracket := aheadMiddle.kind.trans closerKind
      obtain ⟨token, more, rfl, noClosing⟩ := first
      have goesOn : state.advance.kind ≠ .closeBracket := by
        rw [ahead.advance.kind]
        exact noClosing
      have listed : Listed ⟨.closeBracket, false, Kind.closeBracket.text⟩
          ((Level.withRoom room).expression .default) state.advance [tree] middle :=
        .cons goesOn readInside
          (endItem_ok_iff.2 (.inr ⟨by simp [atClosing], rfl, .inl atClosing⟩)) (.nil atClosing)
      have elements := (listOf_ok_iff ((levelProceeds_withRoom room).expression _)
        ((levelConsumes_withRoom room).expression _) ahead.advance.scanned).2 ⟨middle, listed, rfl⟩
      exact ⟨middle.advance, arrayLiteral_ok_iff.2 ⟨[tree], elements, by rw [ahead.current]; rfl⟩,
        aheadMiddle.advance⟩
  | not | dash =>
      obtain rfl : closing = [] := List.map_eq_nil_iff.1 closingKinds
      obtain ⟨after, readInside, aheadAfter⟩ := read .unary
      exact ⟨after, unary_ok_iff.2 ⟨tree, readInside, by rw [ahead.current]; rfl⟩, aheadAfter⟩

/-- A nest is read as its tree where there is room for its word of openers and the number inside. -/
theorem expression_nest {word : List Opener} {tokens : List Token} {tree : Expr}
    (nests : Nests word tokens tree) (fits : word.length < room) (loose : Loose rest)
    (ahead : state.Ahead (tokens ++ rest)) :
    ∃ after, (Level.withRoom room).expression power state = .ok tree after ∧ after.Ahead rest := by
  induction nests generalizing room power state rest with
  | number kind isNumber =>
      obtain ⟨room, rfl⟩ := Nat.exists_eq_add_one.2 fits
      have aheadRest := ahead.advance
      have read := @expression_number room power state _ ahead.scanned (ahead.kind.trans kind)
        (by rw [ahead.current]; exact isNumber) (aheadRest.power_of_loose loose)
      rw [ahead.current] at read
      exact ⟨_, read, aheadRest⟩
  | @cons opener word opening inside closing tree openingKind closingKinds nests
      inductionHypothesis =>
      obtain ⟨room, rfl⟩ := Nat.exists_eq_add_one.2 (Nat.zero_lt_of_lt fits)
      have insideAhead := ahead.deeper (state.nesting + 1)
      have aheadInside : { state with nesting := state.nesting + 1 }.advance.Ahead
          (inside ++ (closing ++ rest)) := by
        simpa [List.append_assoc] using insideAhead.advance
      obtain ⟨middle, read, aheadRest⟩ := operand_nest openingKind closingKinds nests.exists_first
        insideAhead fun power => inductionHypothesis (Nat.lt_of_succ_lt_succ fits)
          (loose_closing closingKinds loose) aheadInside
      exact ⟨_, expression_of_operand ahead.scanned read (aheadRest.power_of_loose loose),
        aheadRest.deeper _⟩

/-! ## Too little room -/

/-- The production fails because of too deep a nesting, reported at the token it stands at. -/
def FailsTooDeep {α : Type} (production : Production α) (state : State) (tokens : List Token) :
    Prop :=
  ∃ failed : State, production state =
    .error (failed.faultHere (.nestingTooDeep maxNesting)) failed ∧ failed.Ahead tokens

theorem FailsTooDeep.bind {α β : Type} {production : Production α} {tokens : List Token}
    (fails : FailsTooDeep production state tokens) (next : α → Production β) :
    FailsTooDeep (production >>= next) state tokens := by
  obtain ⟨failed, read, ahead⟩ := fails
  exact ⟨failed, bind_run_of_error read, ahead⟩

theorem FailsTooDeep.deeper {α : Type} {production : Production α} {tokens : List Token}
    (fails : FailsTooDeep production { state with nesting := state.nesting + 1 } tokens) :
    FailsTooDeep (deeper production) state tokens := by
  obtain ⟨failed, read, ahead⟩ := fails
  refine ⟨{ failed with nesting := failed.nesting - 1 }, ?_, ahead.deeper _⟩
  unfold Production.deeper
  rw [read]
  rfl

/-- A list fails with its first item. -/
theorem FailsTooDeep.listOf {α : Type} {listing : Listing} {item : Production α}
    {tokens : List Token} (fails : FailsTooDeep item state tokens) (proceeds : item.Proceeds)
    (consumes : item.Consumes) (scanned : state.Scanned) (goesOn : state.kind ≠ listing.closing) :
    FailsTooDeep (listOf listing item) state tokens := by
  obtain ⟨failed, read, ahead⟩ := (fails.bind fun value => endItem listing >>= fun _ => pure value)
  refine ⟨failed, ?_, ahead⟩
  rw [listOf_eq]
  refine bind_run_of_error ?_
  rw [manyWhile_run (proceeds.listItem listing) (consumes.listItem listing) scanned,
    if_pos (by simpa using goesOn)]
  exact bind_run_of_error read

/-- A nest with more openers than there is room for fails at the token that is one level too far in.
-/
theorem expression_tooDeep {word : List Opener} {tokens : List Token} {tree : Expr}
    (nests : Nests word tokens tree) (tooMuch : room ≤ word.length)
    (ahead : state.Ahead (tokens ++ rest)) :
    FailsTooDeep ((Level.withRoom room).expression power) state ((tokens ++ rest).drop room) := by
  induction nests generalizing room power state rest with
  | number =>
      obtain rfl := Nat.le_zero.1 tooMuch
      exact ⟨state, rfl, ahead⟩
  | @cons opener word opening inside closing tree openingKind _ nests inductionHypothesis =>
      cases room with
      | zero => exact ⟨state, rfl, ahead⟩
      | succ room =>
          have insideAhead := ahead.deeper (state.nesting + 1)
          have aheadInside : { state with nesting := state.nesting + 1 }.advance.Ahead
              (inside ++ (closing ++ rest)) := by
            simpa [List.append_assoc] using insideAhead.advance
          have fails (power : BindingPower) := @inductionHypothesis room power _ _
            (Nat.le_of_succ_le_succ tooMuch) aheadInside
          rw [List.cons_append, List.drop_succ_cons, List.append_assoc]
          refine FailsTooDeep.deeper (FailsTooDeep.bind ?_ _)
          generalize { state with nesting := state.nesting + 1 } = start at *
          have kind : start.kind = opener.kind := insideAhead.kind.trans openingKind
          unfold FailsTooDeep
          rw [operand_run, kind]
          cases opener with
          | paren =>
              obtain ⟨failed, read, aheadFailed⟩ := fails .default
              exact ⟨failed, (expect_bind_run kind _).trans (bind_run_of_error read), aheadFailed⟩
          | bracket =>
              obtain ⟨token, more, rfl, noClosing⟩ := nests.exists_first
              have goesOn : start.advance.kind ≠ .closeBracket := by
                rw [aheadInside.kind]
                exact noClosing
              have list : FailsTooDeep (expressionList (Level.withRoom room) .closeBracket) _ _ :=
                (fails .default).listOf ((levelProceeds_withRoom room).expression _)
                  ((levelConsumes_withRoom room).expression _) aheadInside.scanned goesOn
              exact list.bind _
          | not | dash => exact (fails .unary).bind _

/-! ## The script -/

/-- An assignment without a declared type is its value, after the name and the sign. -/
theorem statement_run_assignment (inner : Level) (name : state.kind = .identifier)
    (assign : state.advance.kind = .assign) :
    Production.statement inner state =
      (inner.expression .default >>= fun value =>
        (pure (.assignment state.current none value) : Production Stmt)) state.advance.advance := by
  have starts : startsAssignment state = true := by
    have next : state.peek.kind = .assign := by rw [State.peek_eq_current_advance]; exact assign
    simp [startsAssignment, name, next]
  have noType : declaredType? state.advance = .ok none state.advance := by
    exact after?_ok_iff.2 (.inr ⟨by simp [assign], rfl, rfl⟩)
  rw [statement_run, name]
  change (if startsAssignment state = true then assignment inner state else _) = _
  rw [if_pos starts]
  unfold assignment
  rw [bind_run_of_ok (expectAs_ok_iff.2 ⟨name, rfl, rfl⟩), bind_run_of_ok noType,
    expect_bind_run assign]

/-- The assignment of a number is read from the three tokens that it has. -/
theorem statement_number {name assign number : Lexed} {value : Decimal} (scanned : state.Scanned)
    (ahead : state.upcoming = [name, assign, number])
    (kinds : name.token.kind = .identifier ∧ assign.token.kind = .assign ∧
      number.token.kind = .number)
    (isNumber : Decimal.ofText? number.token.value.toList = some value) :
    Production.statement (Level.withRoom (room + 1)) state =
      .ok (.assignment name.token none (.number number.token value))
        state.advance.advance.advance := by
  have aheadAssign := State.advance_upcoming_of ahead
  have aheadNumber := State.advance_upcoming_of aheadAssign
  have none := State.advance_upcoming_of aheadNumber
  have scannedNumber := scanned.advance.advance
  have ended := scannedNumber.advance.kind_eq_endOfInput_iff.2 none
  have read := @expression_number room .default state.advance.advance value scannedNumber
    ((State.kind_of_upcoming aheadNumber).trans kinds.2.2)
    (by rw [State.current_of_upcoming aheadNumber]; exact isNumber)
    (State.power_eq_default (by rw [ended]; rfl))
  rw [statement_run_assignment _ ((State.kind_of_upcoming ahead).trans kinds.1)
    ((State.kind_of_upcoming aheadAssign).trans kinds.2.1), bind_run_of_ok read,
    State.current_of_upcoming ahead, State.current_of_upcoming aheadNumber]
  rfl

/-- The second line of the script is read, whatever is reported before it. -/
theorem statementsWithin_secondLine (scanned : state.Scanned) (ahead : state.upcoming = secondLine)
    {bound : List Lexed} (nonempty : bound ≠ []) :
    ∃ final : State, statementsWithin false (Production.statement (Level.withRoom maxNesting)) bound
        state = ([.assignment ⟨.identifier, "y", ⟨2, 1⟩⟩ none
          (.number ⟨.number, "2", ⟨2, 5⟩⟩ ⟨2, 0⟩)], final) ∧
      final.sink = state.sink := by
  obtain ⟨head, bound, rfl⟩ := List.exists_cons_of_ne_nil nonempty
  have read := @statement_number 99 state _ _ _ ⟨2, 0⟩ scanned ahead ⟨rfl, rfl, rfl⟩ (by decide)
  have none : state.advance.advance.advance.upcoming = [] := by
    rw [State.Reaches.advance_upcoming, State.Reaches.advance_upcoming,
      State.Reaches.advance_upcoming, ahead]
    rfl
  have ended := scanned.advance.advance.advance.kind_eq_endOfInput_iff.2 none
  have ends : endsStatements false state.advance.advance.advance.kind = true := by
    rw [ended]
    rfl
  have kind : state.kind = .identifier := State.kind_of_upcoming ahead
  refine ⟨state.advance.advance.advance, ?_, ?_⟩
  · have separated : checkSeparated false state.advance.advance.advance =
        state.advance.advance.advance := by
      rw [checkSeparated, ends, Bool.true_or, Bool.true_or, if_pos rfl]
    have reads : Production.statement (Level.withRoom maxNesting) state = _ := read
    rw [statementsWithin, kind, if_neg (by decide), if_neg (by decide), reads]
    simp only [separated, statementsWithin_of_ends ends]
  · simp [State.advance, ahead, secondLine, Sink.pushOption]

end Production

/-- Every token of the first line stands on it. -/
theorem nestingLine_onLine (word : List Opener) : ∀ lexed ∈ nestingLine word, lexed.OnLine 1 := by
  have nested (column : Nat) :
      ∀ lexed ∈ laid ⟨1, column⟩ (nestedPrinted word .none), lexed.OnLine 1 := by
    induction word generalizing column with
    | nil =>
        intro lexed member
        obtain rfl := List.mem_singleton.1 member
        exact ⟨nofun, rfl, rfl⟩
    | cons opener word inductionHypothesis =>
        obtain ⟨after, split⟩ := laid_nestedPrinted_cons opener word column
        rw [split]
        refine List.forall_mem_cons.2 ⟨⟨by cases opener <;> exact nofun, rfl, rfl⟩, ?_⟩
        refine List.forall_mem_append.2 ⟨inductionHypothesis (column + 1), ?_⟩
        cases opener with
        | paren | bracket => exact List.forall_mem_singleton.2 ⟨nofun, rfl, rfl⟩
        | not | dash => exact List.forall_mem_nil _
  exact List.forall_mem_cons.2 ⟨⟨by decide, rfl, rfl⟩,
    List.forall_mem_cons.2 ⟨⟨by decide, rfl, rfl⟩, nested 5⟩⟩

theorem nestingLine_fault? (word : List Opener) :
    ∀ lexed ∈ nestingLine word ++ secondLine, lexed.fault? = none := by
  refine List.forall_mem_append.2 ⟨?_, by decide⟩
  exact List.forall_mem_cons.2 ⟨rfl, List.forall_mem_cons.2 ⟨rfl, fun _ => laid_fault?⟩⟩

section

variable (word : List Opener)

/-- Reading the script starts in front of its two lines. -/
theorem ofSource_nestingText :
    State.ofSource (nestingText word) =
      { upcoming := nestingLine word ++ secondLine
        ending := ⟨⟨.endOfInput, "", ⟨2, 6⟩⟩, 2, none⟩
        lastLine := 0
        openBrackets := []
        nesting := 0
        sink := Sink.empty } := by
  have clean : ((nestingLine word ++ secondLine).take 2).filterMap Lexed.fault? = [] := rfl
  rw [State.ofSource, scan_nestingText, State.ofScan, clean]
  rfl

theorem upcoming_nestingText :
    (State.ofSource (nestingText word)).upcoming = nestingLine word ++ secondLine := by
  rw [ofSource_nestingText]

theorem ahead_nestingText :
    (State.ofSource (nestingText word)).Ahead (⟨.identifier, "x", ⟨1, 1⟩⟩ ::
      ⟨.assign, "=", ⟨1, 3⟩⟩ :: ((laid ⟨1, 5⟩ (nestedPrinted word .none)).map Lexed.token ++
        secondLine.map Lexed.token)) := by
  refine ⟨State.scanned_ofSource _, ?_, ?_, by rw [ofSource_nestingText]⟩
  · rw [upcoming_nestingText, List.map_append]
    rfl
  · rw [upcoming_nestingText]
    exact nestingLine_fault? word

/-- The first statement is the name, the sign, and what the nest is read as. -/
theorem statement_nestingText :
    Production.statement (Level.withRoom maxNesting) (State.ofSource (nestingText word)) =
      ((Level.withRoom maxNesting).expression .default >>= fun value =>
        (pure (.assignment ⟨.identifier, "x", ⟨1, 1⟩⟩ none value) : Production Stmt))
        (State.ofSource (nestingText word)).advance.advance := by
  have ahead := ahead_nestingText word
  rw [Production.statement_run_assignment _ ahead.kind ahead.advance.kind, ahead.current]

/-- The tokens ahead of a later state are known once it is known what they are as tokens. -/
theorem State.Reaches.upcoming_eq {start state : State} {passed rest : List Lexed}
    (course : start.Reaches state) (split : start.upcoming = passed ++ rest)
    (ahead : state.Ahead (rest.map Lexed.token)) : state.upcoming = rest := by
  have lengths : state.upcoming.length = rest.length := by
    simpa using congrArg List.length ahead.tokens_eq
  have suffix : rest <:+ start.upcoming := ⟨passed, split.symm⟩
  have shorter := List.suffix_of_suffix_length_le course.upcoming_suffix suffix (Nat.le_of_eq lengths)
  exact shorter.eq_of_length lengths

/-- With at most 99 openers, the first line is read as an assignment. -/
theorem statement_nestingText_ok (fits : word.length ≤ 99) :
    ∃ after, Production.statement (Level.withRoom maxNesting) (State.ofSource (nestingText word)) =
        .ok (.assignment ⟨.identifier, "x", ⟨1, 1⟩⟩ none (nestedTree 5 word)) after ∧
      after.upcoming = secondLine ∧ after.lastLine = 1 ∧ after.sink = Sink.empty := by
  have loose : Loose (secondLine.map Lexed.token) := by
    rintro _ ⟨⟩
    rfl
  obtain ⟨after, read, ahead⟩ := @Production.expression_nest maxNesting .default _ _ _ _ _
    (nests_laid word 5) (Nat.lt_succ_of_le fits) loose (ahead_nestingText word).advance.advance
  have reads := (statement_nestingText word).trans (Production.bind_run_of_ok read)
  have course := (Production.proceeds_statement_withRoom maxNesting).of_ok reads
  have upcoming := course.upcoming_eq (upcoming_nestingText word) ahead
  have split : (State.ofSource (nestingText word)).upcoming =
      nestingLine word ++ after.upcoming := by rw [upcoming, upcoming_nestingText]
  exact ⟨after, reads, upcoming, course.lastLine_eq_of_onLine split (List.cons_ne_nil _ _)
    (nestingLine_onLine word), ahead.clean⟩

/-- With more than 99 openers, the first line fails at the token after the hundredth. -/
theorem statement_nestingText_error (tooMuch : 99 < word.length) :
    ∃ failed passed later,
      Production.statement (Level.withRoom maxNesting) (State.ofSource (nestingText word)) =
        .error ⟨.nestingTooDeep 100, ⟨1, 105⟩⟩ failed ∧
      nestingLine word = passed ++ later ∧ passed ≠ [] ∧ failed.upcoming = later ++ secondLine ∧
      failed.sink = Sink.empty := by
  have nests := nests_laid word 5
  obtain ⟨failed, read, ahead⟩ := @Production.expression_tooDeep maxNesting .default _ _ _ _ _
    nests tooMuch (ahead_nestingText word).advance.advance
  have reads := (statement_nestingText word).trans (Production.bind_run_of_error read)
  have course := Production.proceeds_statement_withRoom maxNesting
    (State.ofSource (nestingText word))
  rw [reads] at course
  obtain ⟨passed, later, cut, split⟩ : ∃ passed later,
      (laid ⟨1, 5⟩ (nestedPrinted word .none)).drop maxNesting = later ∧
        nestingLine word = passed ++ later :=
    ⟨(nestingLine word).take (maxNesting + 2), _, rfl, (List.take_append_drop _ _).symm⟩
  have longer := nests.length_lt
  have aheadLater : failed.Ahead ((later ++ secondLine).map Lexed.token) := by
    have enough : maxNesting ≤
        ((laid ⟨1, 5⟩ (nestedPrinted word .none)).map Lexed.token).length :=
      Nat.le_of_lt (Nat.lt_of_le_of_lt tooMuch longer)
    rwa [List.drop_append_of_le_length enough, ← List.map_drop, ← List.map_append, cut] at ahead
  have upcoming : failed.upcoming = later ++ secondLine :=
    course.upcoming_eq (by rw [upcoming_nestingText, split, List.append_assoc]) aheadLater
  have place : failed.current.position = ⟨1, 105⟩ := by
    obtain ⟨lexed, found, place⟩ := @position_laid_nestedPrinted word 5 maxNesting tooMuch
    obtain ⟨within, rfl⟩ := List.getElem?_eq_some_iff.1 found
    rw [← cut, List.drop_eq_getElem_cons within] at upcoming
    rw [State.current_of_upcoming upcoming, place]
    rfl
  refine ⟨failed, passed, later, ?_, split, ?_, upcoming, ahead.clean⟩
  · rw [reads, State.faultHere, place]
    rfl
  · rintro rfl
    have lengths := congrArg List.length split
    rw [List.nil_append, ← cut, List.length_drop, nestingLine] at lengths
    simp only [List.length_cons] at lengths
    omega

/-- After a first line that is read, the second line stands on a line of its own. -/
theorem readFirst_nestingText (fits : word.length ≤ 99) :
    ∃ after, Production.statement (Level.withRoom maxNesting) (State.ofSource (nestingText word)) =
        .ok (.assignment ⟨.identifier, "x", ⟨1, 1⟩⟩ none (nestedTree 5 word)) after ∧
      Production.checkSeparated false after = after ∧ after.Scanned ∧
      after.upcoming = secondLine ∧ after.sink = Sink.empty := by
  obtain ⟨after, read, ahead, lastLine, clean⟩ := statement_nestingText_ok word fits
  have fresh : after.onNewLine = true := by
    rw [State.onNewLine, State.current_of_upcoming ahead, lastLine]
    rfl
  have separated : Production.checkSeparated false after = after := by
    rw [Production.checkSeparated, fresh, Bool.or_true, if_pos rfl]
  have course := (Production.proceeds_statement_withRoom maxNesting).of_ok read
  exact ⟨after, read, separated, (State.scanned_ofSource _).of_reaches course, ahead, clean⟩

/-- After a first line that is too deep, reading resumes at the second line. -/
theorem skipFirst_nestingText (tooMuch : 99 < word.length) :
    ∃ failed, Production.statement (Level.withRoom maxNesting) (State.ofSource (nestingText word)) =
        .error ⟨.nestingTooDeep 100, ⟨1, 105⟩⟩ failed ∧
      let resumed := Production.recover (State.ofSource (nestingText word))
        (failed.report ⟨.nestingTooDeep 100, ⟨1, 105⟩⟩)
      resumed.Scanned ∧ resumed.upcoming = secondLine ∧
        resumed.sink = ⟨[⟨.nestingTooDeep 100, ⟨1, 105⟩⟩]⟩ := by
  obtain ⟨failed, passed, later, read, split, moved, failedAhead, clean⟩ :=
    statement_nestingText_error word tooMuch
  have upcoming := upcoming_nestingText word
  have course := Production.proceeds_statement_withRoom maxNesting
    (State.ofSource (nestingText word))
  rw [read] at course
  have balanced : Balanced ((nestingLine word).map Lexed.token) :=
    .plain rfl (.plain rfl (nests_laid word 5).balanced)
  have onLine := nestingLine_onLine word
  rw [split] at balanced onLine
  have resumed := @Production.recover_line 1 _ failed ⟨.nestingTooDeep 100, ⟨1, 105⟩⟩ passed later
    _ _ course (by rw [upcoming, split, List.append_assoc]; rfl) failedAhead moved
    (by rw [upcoming]; exact nestingLine_fault? word) clean onLine (by decide)
    (by rw [ofSource_nestingText]) balanced
  have reaches := (State.Reaches.report _ course).trans (State.Reaches.recover
    (State.ofSource (nestingText word)) (failed.report_sink_ne_empty ⟨.nestingTooDeep 100, ⟨1, 105⟩⟩))
  refine ⟨failed, read, (State.scanned_ofSource _).of_reaches reaches, ?_, ?_⟩
  · rw [resumed]
    rfl
  · rw [resumed]

end

/-- A number nested in a word of openers is read, with one array for each bracket and one operator
application for each sign, if the word has at most 99 openers. If it has more, one diagnostic is
reported, at the first token that is one level too far in, and the rest of the line is skipped. In
both cases the next line is read. -/
theorem parse_nestingText (word : List Opener) :
    parse (nestingText word) =
      if word.length ≤ 99 then
        (⟨[.assignment ⟨.identifier, "x", ⟨1, 1⟩⟩ none (nestedTree 5 word),
            .assignment ⟨.identifier, "y", ⟨2, 1⟩⟩ none (.number ⟨.number, "2", ⟨2, 5⟩⟩ ⟨2, 0⟩)]⟩,
          Sink.empty)
      else
        (⟨[.assignment ⟨.identifier, "y", ⟨2, 1⟩⟩ none (.number ⟨.number, "2", ⟨2, 5⟩⟩ ⟨2, 0⟩)]⟩,
          ⟨[⟨.nestingTooDeep 100, ⟨1, 105⟩⟩]⟩) := by
  have kind : (State.ofSource (nestingText word)).kind = .identifier :=
    (ahead_nestingText word).kind
  obtain ⟨head, bound, isCons, nonempty⟩ :
      ∃ head bound, nestingLine word ++ secondLine = head :: bound ∧ bound ≠ [] :=
    ⟨_, _, rfl, List.cons_ne_nil _ _⟩
  rw [parse_eq]
  conv => lhs; rw [upcoming_nestingText, isCons]
  rw [Production.statementsWithin, kind, if_neg (by decide), if_neg (by decide)]
  by_cases fits : word.length ≤ 99
  · obtain ⟨after, read, separated, scanned, ahead, clean⟩ := readFirst_nestingText word fits
    obtain ⟨final, reads, sink⟩ := Production.statementsWithin_secondLine scanned ahead nonempty
    simp only [read, separated, reads, sink, clean, if_pos fits]
  · obtain ⟨failed, read, scanned, ahead, recorded⟩ :=
      skipFirst_nestingText word (Nat.lt_of_not_le fits)
    obtain ⟨final, reads, sink⟩ := Production.statementsWithin_secondLine scanned ahead nonempty
    simp only [read, reads, sink, recorded, if_neg fits]

end AgentScript
