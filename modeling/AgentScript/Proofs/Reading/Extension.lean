import AgentScript.Proofs.Reading.Content

/-!
Contract: scripts that go on after the tokens ahead.

Owns:
- the tokens of a sequel: they do not continue the statement before them, and those that would on
  its last line stand on a later one;
- which sequels end the statement before them, and which statements others leave as they are;
- the state with the tokens of a sequel after its own, and what does not change by them;
- productions that read the same when a sequel follows, and how such productions are put together.
-/

set_option autoImplicit false

namespace AgentScript

/-- Tokens that follow on a script and bind to nothing of it. -/
structure Sequel where
  tokens : List Lexed
  ending : Lexed
  /-- The last line of the script before. -/
  line : Nat
  ending_kind : ending.token.kind = .endOfInput
  kind_ne : ∀ lexed ∈ tokens, lexed.token.kind ≠ .endOfInput
  wellSpelled : ∀ lexed ∈ tokens, lexed.token.WellSpelled
  starts : (tokens.headD ending).token.kind.continuesStatement = false
  /-- A call or an index of the last expression would stand on its line. -/
  unbound : (tokens.headD ending).token.kind.needsSameLine = true →
    line < (tokens.headD ending).token.position.line

/-- Tokens that follow on a script, on lines of their own. -/
structure FreshSequel extends Sequel where
  line_lt : line < (tokens.headD ending).token.position.line
  unbound := fun _ => line_lt

/-- A return that a value on its line would belong to. -/
def Stmt.isBareReturn : Stmt → Bool
  | .returnValue _ none => true
  | _ => false

namespace Sequel

/-- The first token of a sequel. -/
def first (sequel : Sequel) : Token := (sequel.tokens.headD sequel.ending).token

/-- Whether the sequel starts on a line of its own. -/
def OnNewLine (sequel : Sequel) : Prop := sequel.line < sequel.first.position.line

/-- Whether nothing of the sequel can belong to a statement before it. -/
def EndsStatements (sequel : Sequel) : Prop := sequel.first.kind = .semicolon ∨ sequel.OnNewLine

/-- Whether the statement before the sequel is the same without it. -/
def Leaves (sequel : Sequel) (statement : Stmt) : Prop :=
  sequel.EndsStatements ∨ statement.isBareReturn = false

end Sequel

/-- The state with the tokens of a sequel after its own. Of the sequel, the faults of those tokens
are recorded that are among the two ahead. -/
def State.extended (sequel : Sequel) (state : State) : State :=
  { state with
    upcoming := state.upcoming ++ sequel.tokens
    ending := sequel.ending
    sink := Sink.empty.pushAll
      ((sequel.tokens.take (2 - state.upcoming.length)).filterMap Lexed.fault?) }

/-- Tokens without faults have none in view. -/
theorem filterMap_fault?_take {tokens : List Lexed}
    (complete : ∀ lexed ∈ tokens, lexed.fault? = none) (count : Nat) :
    (tokens.take count).filterMap Lexed.fault? = [] :=
  List.filterMap_eq_nil_iff.2 fun lexed member => complete lexed (List.mem_of_mem_take member)

/-- A scan that goes on with a sequel starts as the scan without it does. -/
theorem State.ofScan_append {scan : Scan} (complete : ∀ lexed ∈ scan.tokens, lexed.fault? = none)
    (sequel : Sequel) :
    ofScan ⟨scan.tokens ++ sequel.tokens, sequel.ending⟩ = (ofScan scan).extended sequel := by
  unfold ofScan extended
  simp only [List.take_append, List.filterMap_append, filterMap_fault?_take complete,
    List.nil_append]

/-- A state of the script before a sequel: its tokens have no faults and end before the sequel. -/
structure State.Precedes (sequel : Sequel) (state : State) : Prop where
  scanned : state.Scanned
  fault?_eq : ∀ lexed ∈ state.upcoming, lexed.fault? = none
  endLine_le : ∀ lexed ∈ state.upcoming, lexed.endLine ≤ sequel.line
  lastLine_le : state.lastLine ≤ sequel.line

/-- The faults of one token more. -/
theorem Sink.pushAll_take_succ (sink : Sink) (tokens : List Lexed) (count : Nat) :
    (sink.pushAll ((tokens.take count).filterMap Lexed.fault?)).pushOption
        (tokens[count]?.bind Lexed.fault?) =
      sink.pushAll ((tokens.take (count + 1)).filterMap Lexed.fault?) := by
  rw [List.take_add_one, List.filterMap_append]
  unfold pushAll
  rw [List.foldl_append]
  cases tokens[count]? with
  | none => rfl
  | some lexed =>
      rw [Option.bind_some, Option.toList_some, List.filterMap_cons]
      cases lexed.fault? <;> rfl

section

variable {sequel : Sequel}

/-- The next token is the current one once the current one is passed. -/
theorem State.peek_eq_current_advance (state : State) : state.peek = state.advance.current := by
  unfold State.peek State.current
  rw [State.Reaches.advance_upcoming, State.Reaches.advance_ending]

namespace State.Precedes

variable {state after : State}

theorem of_reaches (precedes : state.Precedes sequel) (course : state.Reaches after) :
    after.Precedes sequel where
  scanned := precedes.scanned.of_reaches course
  fault?_eq := fun lexed member => precedes.fault?_eq lexed (course.upcoming_suffix.subset member)
  endLine_le := fun lexed member => precedes.endLine_le lexed (course.upcoming_suffix.subset member)
  lastLine_le := by
    rcases course.lastLine_eq with same | ⟨lexed, member, same⟩
    · exact same ▸ precedes.lastLine_le
    · exact same ▸ precedes.endLine_le lexed member

theorem advance (precedes : state.Precedes sequel) : state.advance.Precedes sequel :=
  precedes.of_reaches (.advance (.refl state))

theorem deeper (precedes : state.Precedes sequel) (nesting : Nat) :
    { state with nesting := nesting }.Precedes sequel :=
  ⟨precedes.scanned.deeper nesting, precedes.fault?_eq, precedes.endLine_le, precedes.lastLine_le⟩

theorem scanned_extended (precedes : state.Precedes sequel) : (state.extended sequel).Scanned where
  ending_kind := sequel.ending_kind
  kind_ne := fun lexed member =>
    (List.mem_append.1 member).elim (precedes.scanned.kind_ne lexed) (sequel.kind_ne lexed)
  wellSpelled := fun lexed member =>
    (List.mem_append.1 member).elim (precedes.scanned.wellSpelled lexed) (sequel.wellSpelled lexed)

/-- Before the end of the script, the sequel is not seen. -/
theorem current_extended (precedes : state.Precedes sequel) (token : state.kind ≠ .endOfInput) :
    (state.extended sequel).current = state.current := by
  obtain ⟨lexed, ahead, current⟩ := precedes.scanned.exists_current token
  rw [← current]
  unfold State.current extended
  rw [ahead]
  rfl

theorem kind_extended (precedes : state.Precedes sequel) (token : state.kind ≠ .endOfInput) :
    (state.extended sequel).kind = state.kind :=
  congrArg Token.kind (precedes.current_extended token)

theorem onNewLine_extended (precedes : state.Precedes sequel) (token : state.kind ≠ .endOfInput) :
    (state.extended sequel).onNewLine = state.onNewLine := by
  unfold onNewLine
  rw [precedes.current_extended token]
  rfl

theorem advance_extended (precedes : state.Precedes sequel) (token : state.kind ≠ .endOfInput) :
    (state.extended sequel).advance = state.advance.extended sequel := by
  have noFault := precedes.fault?_eq
  obtain ⟨upcoming, ending, lastLine, openBrackets, nesting, sink⟩ := state
  cases upcoming with
  | nil => exact absurd (precedes.scanned.kind_eq_endOfInput_iff.2 rfl) token
  | cons lexed rest =>
      unfold State.advance extended
      simp only [List.cons_append, State.mk.injEq, true_and, List.length_cons]
      by_cases near : rest.length ≤ 1
      · -- a token of the sequel comes into view
        have view : 2 - rest.length = 2 - (rest.length + 1) + 1 := by omega
        rw [List.getElem?_append_right near, view, ← Sink.pushAll_take_succ]
        have place : 1 - rest.length = 2 - (rest.length + 1) := by omega
        rw [place]
      · have inView : 1 < rest.length := by omega
        have none : rest[1].fault? = none :=
          noFault rest[1] (List.mem_cons_of_mem _ (List.getElem_mem inView))
        have far : 2 - rest.length = 0 := by omega
        have farther : 2 - (rest.length + 1) = 0 := by omega
        rw [List.getElem?_append_left inView, List.getElem?_eq_getElem inView, far, farther]
        simp [none, Sink.pushOption]

/-- At the end of the script, the first token of the sequel is seen. -/
theorem current_extended_of_end (precedes : state.Precedes sequel) (ended : state.kind = .endOfInput) :
    (state.extended sequel).current = sequel.first := by
  have none := precedes.scanned.kind_eq_endOfInput_iff.1 ended
  unfold State.current extended
  rw [none]
  rfl

theorem onNewLine_extended_of_end (precedes : state.Precedes sequel)
    (ended : state.kind = .endOfInput) (fresh : sequel.OnNewLine) :
    (state.extended sequel).onNewLine = true := by
  unfold onNewLine
  rw [precedes.current_extended_of_end ended]
  exact decide_eq_true (Nat.lt_of_le_of_lt precedes.lastLine_le fresh)

/-- A sequel that ends statements is a separator of them, or stands on a new line. -/
theorem ends_extended_of_end (precedes : state.Precedes sequel) (ended : state.kind = .endOfInput)
    (ends : sequel.EndsStatements) :
    (state.extended sequel).kind = .semicolon ∨ (state.extended sequel).onNewLine = true := by
  rcases ends with semicolon | fresh
  · exact .inl ((congrArg Token.kind (precedes.current_extended_of_end ended)).trans semicolon)
  · exact .inr (precedes.onNewLine_extended_of_end ended fresh)

/-- Neither the script nor the sequel goes on with a token that continues a statement. -/
theorem kind_extended_ne (precedes : state.Precedes sequel) {kind : Kind}
    (continues : kind.continuesStatement = true) (other : state.kind ≠ kind) :
    (state.extended sequel).kind ≠ kind := by
  by_cases ended : state.kind = .endOfInput
  · intro same
    have starts := sequel.starts
    rw [← Sequel.first, ← precedes.current_extended_of_end ended, ← State.kind, same, continues]
      at starts
    cases starts
  · rwa [precedes.kind_extended ended]

theorem kind_extended_iff (precedes : state.Precedes sequel) {kind : Kind}
    (continues : kind.continuesStatement = true) :
    (state.extended sequel).kind = kind ↔ state.kind = kind := by
  constructor
  · intro same
    by_contra other
    exact precedes.kind_extended_ne continues other same
  · rintro rfl
    refine precedes.kind_extended fun ended => ?_
    rw [ended] at continues
    cases continues

/-- Nothing of the sequel binds to an expression of the script. -/
theorem power_extended (precedes : state.Precedes sequel) :
    (state.extended sequel).power = state.power := by
  by_cases ended : state.kind = .endOfInput
  · have current := precedes.current_extended_of_end ended
    have none : state.power = .default := by
      unfold State.power
      rw [ended]
      rfl
    rw [none]
    unfold State.power
    split
    · rfl
    · next binds =>
        rcases Kind.power_of_not_continuesStatement sequel.starts with unbound | sameLine
        · rw [State.kind, current]
          exact unbound
        · have fresh := precedes.onNewLine_extended_of_end ended (sequel.unbound sameLine)
          have needs : (state.extended sequel).kind.needsSameLine = true := by
            rw [State.kind, current]
            exact sameLine
          rw [needs, fresh] at binds
          exact absurd rfl binds
  · unfold State.power
    rw [precedes.kind_extended ended, precedes.onNewLine_extended ended]

theorem atStatementEnd_extended (precedes : state.Precedes sequel)
    (seen : state.kind ≠ .endOfInput ∨ sequel.EndsStatements) :
    (state.extended sequel).atStatementEnd = state.atStatementEnd := by
  by_cases ended : state.kind = .endOfInput
  · have ends := precedes.ends_extended_of_end ended (seen.resolve_left (absurd ended))
    unfold atStatementEnd
    rw [ended]
    rcases ends with semicolon | fresh
    · simp [semicolon]
    · simp [fresh]
  · unfold atStatementEnd
    rw [precedes.kind_extended ended, precedes.onNewLine_extended ended]

theorem peek_extended (precedes : state.Precedes sequel) (token : state.kind ≠ .endOfInput) :
    (state.extended sequel).peek = (state.advance.extended sequel).current := by
  rw [peek_eq_current_advance, precedes.advance_extended token]

/-- A token of the script is passed as if no sequel followed. -/
theorem sees (precedes : state.Precedes sequel) {kind : Kind} (kind_eq : state.kind = kind)
    (token : kind ≠ .endOfInput) :
    (state.extended sequel).kind = kind ∧ (state.extended sequel).current = state.current ∧
      (state.extended sequel).advance = state.advance.extended sequel := by
  subst kind_eq
  exact ⟨precedes.kind_extended token, precedes.current_extended token,
    precedes.advance_extended token⟩

end State.Precedes

/-- A course that ends before the end of the script starts before it. -/
theorem State.Scanned.token_of_reaches {state after : State} (scanned : state.Scanned)
    (course : state.Reaches after) (token : after.kind ≠ .endOfInput) :
    state.kind ≠ .endOfInput := by
  intro ended
  have none := scanned.kind_eq_endOfInput_iff.1 ended
  have suffix := course.upcoming_suffix
  rw [none] at suffix
  exact token ((scanned.of_reaches course).kind_eq_endOfInput_iff.2 (List.suffix_nil.1 suffix))

namespace Production

variable {α : Type}

/-- What is read without diagnostics is read the same when the sequel follows. -/
def Extends (sequel : Sequel) (production : Production α) : Prop :=
  ∀ (state after : State) (value : α), state.Precedes sequel → after.sink = Sink.empty →
    production state = .ok value after →
    production (state.extended sequel) = .ok value (after.extended sequel)

/-- What is read without diagnostics, up to before the end of the script, is read the same when the
sequel follows. -/
def ExtendsWithin (sequel : Sequel) (production : Production α) : Prop :=
  ∀ (state after : State) (value : α), state.Precedes sequel → after.sink = Sink.empty →
    after.kind ≠ .endOfInput → production state = .ok value after →
    production (state.extended sequel) = .ok value (after.extended sequel)

theorem Extends.within {production : Production α} (same : production.Extends sequel) :
    production.ExtendsWithin sequel :=
  fun state after value precedes clean _ read => same state after value precedes clean read

/-- What is read without diagnostics is read the same when the sequel follows, unless it is a return
at the end of the script that the sequel gives a value. -/
def ExtendsLeft (sequel : Sequel) (production : Production Stmt) : Prop :=
  ∀ (state after : State) (statement : Stmt), state.Precedes sequel → after.sink = Sink.empty →
    (after.kind ≠ .endOfInput ∨ sequel.Leaves statement) →
    production state = .ok statement after →
    production (state.extended sequel) = .ok statement (after.extended sequel)

theorem Extends.left {production : Production Stmt} (same : production.Extends sequel) :
    production.ExtendsLeft sequel :=
  fun state after statement precedes clean _ read => same state after statement precedes clean read

theorem extends_tooDeep : (tooDeep : Production α).Extends sequel :=
  fun _ _ _ _ _ read => nomatch read

theorem Extends.deeper {production : Production α} (same : production.Extends sequel) :
    (deeper production).Extends sequel := by
  intro state after value precedes clean read
  obtain ⟨inside, readInside, rfl⟩ := deeper_ok_iff.1 read
  exact deeper_ok_iff.2 ⟨inside.extended sequel,
    same { state with nesting := state.nesting + 1 } inside value (precedes.deeper _) clean readInside,
    rfl⟩

theorem ExtendsLeft.deeper {production : Production Stmt} (same : production.ExtendsLeft sequel) :
    (deeper production).ExtendsLeft sequel := by
  intro state after statement precedes clean leaves read
  obtain ⟨inside, readInside, rfl⟩ := deeper_ok_iff.1 read
  exact deeper_ok_iff.2 ⟨inside.extended sequel,
    same { state with nesting := state.nesting + 1 } inside statement (precedes.deeper _) clean leaves
      readInside, rfl⟩

/-- A part that may stand after a token of its own, which the sequel does not start with. -/
theorem extends_after? {production : Production α} {kind : Kind} {state after : State}
    {value : Option α} (continues : kind.continuesStatement = true) (precedes : state.Precedes sequel)
    (same : ∀ first, production state.advance = .ok first after →
      production (state.advance.extended sequel) = .ok first (after.extended sequel))
    (read : after? kind production state = .ok value after) :
    after? kind production (state.extended sequel) = .ok value (after.extended sequel) := by
  obtain ⟨here, first, readFirst, rfl⟩ | ⟨elsewhere, rfl, rfl⟩ := after?_ok_iff.1 read
  · have token : kind ≠ .endOfInput := by
      rintro rfl
      cases continues
    obtain ⟨kindSame, _, onward⟩ := precedes.sees here token
    exact after?_ok_iff.2 (.inl ⟨kindSame, first, by rw [onward]; exact same first readFirst, rfl⟩)
  · exact after?_ok_iff.2 (.inr ⟨precedes.kind_extended_ne continues elsewhere, rfl, rfl⟩)

/-- The rounds of a repetition whose condition does not see the sequel. -/
theorem Iterated.extended {continues : State → Bool} {round : α → Production α}
    (proceeds : ∀ value, (round value).Proceeds) {state after : State} {value result : α}
    (sees : ∀ state : State, state.Precedes sequel → state.Reaches after →
      continues (state.extended sequel) = continues state)
    (same : ∀ (value next : α) (state middle : State), state.Precedes sequel →
      middle.sink = Sink.empty → continues state = true → round value state = .ok next middle →
      round value (state.extended sequel) = .ok next (middle.extended sequel))
    (iterated : Iterated continues round value state result after) (precedes : state.Precedes sequel)
    (clean : after.sink = Sink.empty) :
    Iterated continues round value (state.extended sequel) result (after.extended sequel) := by
  induction iterated with
  | stop value stops => exact .stop value ((sees _ precedes (.refl _)).trans stops)
  | @round state middle after value next result goesOn read rest inductionHypothesis =>
      have onward := rest.reaches proceeds
      have cleanMiddle := onward.sink_eq_empty clean
      have course := (proceeds value).of_ok read
      exact .round ((sees _ precedes (course.trans onward)).trans goesOn)
        (same value next state middle precedes cleanMiddle goesOn read)
        (inductionHypothesis sees (precedes.of_reaches course) clean)

theorem extends_endItem {listing : Listing} {state after : State} (precedes : state.Precedes sequel)
    (token : state.kind ≠ .endOfInput) (ended : endItem listing state = .ok () after) :
    endItem listing (state.extended sequel) = .ok () (after.extended sequel) := by
  have kind := precedes.kind_extended token
  obtain ⟨comma, rfl⟩ | ⟨noComma, rfl, separated⟩ := endItem_ok_iff.1 ended
  · exact endItem_ok_iff.2 (.inl ⟨kind.trans comma, precedes.advance_extended token⟩)
  · refine endItem_ok_iff.2 (.inr ⟨kind ▸ noComma, rfl, ?_⟩)
    rwa [kind, precedes.onNewLine_extended token]

/-- The items of a list that is closed in the script. -/
theorem Listed.extended {listing : Listing} {item : Production α} (proceeds : item.Proceeds)
    (same : item.ExtendsWithin sequel) (closing : listing.closing ≠ .endOfInput)
    {state after : State} {items : List α} (listed : Listed listing item state items after)
    (precedes : state.Precedes sequel) (clean : after.sink = Sink.empty) :
    Listed listing item (state.extended sequel) items (after.extended sequel) := by
  induction listed with
  | nil closes => exact .nil ((precedes.kind_extended (closes ▸ closing)).trans closes)
  | @cons state middle next after first rest isOpen read ended listed inductionHypothesis =>
      have onward := listed.reaches proceeds
      have ending := (proceeds_endItem listing).of_ok ended
      have course := proceeds.of_ok read
      have cleanMiddle := (ending.trans onward).sink_eq_empty clean
      have middlePrecedes := precedes.of_reaches course
      have last : after.kind ≠ .endOfInput := listed.kind_eq ▸ closing
      have middleToken := middlePrecedes.scanned.token_of_reaches (ending.trans onward) last
      have token := precedes.scanned.token_of_reaches course middleToken
      exact .cons (precedes.kind_extended token ▸ isOpen)
        (same _ _ _ precedes cleanMiddle middleToken read)
        (extends_endItem middlePrecedes middleToken ended)
        (inductionHypothesis (middlePrecedes.of_reaches ending) clean)

theorem extends_listOf {listing : Listing} {item : Production α} (proceeds : item.Proceeds)
    (consumes : item.Consumes) (same : item.ExtendsWithin sequel)
    (closing : listing.closing ≠ .endOfInput) : (listOf listing item).Extends sequel := by
  intro state after items precedes clean read
  obtain ⟨before, listed, rfl⟩ := (listOf_ok_iff proceeds consumes precedes.scanned).1 read
  have cleanBefore := (State.Reaches.refl before).advance.sink_eq_empty clean
  have beforePrecedes := precedes.of_reaches (listed.reaches proceeds)
  have token : before.kind ≠ .endOfInput := listed.kind_eq ▸ closing
  exact (listOf_ok_iff proceeds consumes precedes.scanned_extended).2
    ⟨before.extended sequel, listed.extended proceeds same closing precedes cleanBefore,
      beforePrecedes.advance_extended token⟩

end Production

end

end AgentScript
