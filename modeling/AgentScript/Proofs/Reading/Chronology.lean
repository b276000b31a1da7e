import AgentScript.Proofs.Reading.Lexical

/-!
Contract: the order in which the diagnostics of a script are recorded.

Owns:
- what two diagnostics of a script may be to each other if one is recorded before the other;
- the chronicle, an invariant of reading: the diagnostics of a state are in that order, and none of
  them stands after the current token but the fault of a literal in view;
- that the diagnostics of a script are in source order, but for the fault of an unterminated
  literal, which is recorded up to two tokens early, and for the faults of a whole statement, which
  are recorded after those of the statements inside it.
-/

set_option autoImplicit false

namespace AgentScript

/-! ## The order of two diagnostics -/

/-- A literal at the end of a script, and a token before it with at most one token between them. -/
def EndsSoon (tokens : List Token) (position literal : Position) : Prop :=
  ∃ token between last ending, token :: between ++ [last, ending] <:+ tokens ∧
    between.length ≤ 1 ∧ token.position = position ∧ last.position = literal

/-- What two diagnostics of a script may be to each other if the first is recorded before the
second: they are in source order, or the second is belated, or the first is the fault of a literal
that came into view before the second was found. -/
def Diagnostic.MayPrecede (tokens : List Token) (earlier later : Diagnostic) : Prop :=
  earlier.position ≤ later.position ∨ later.fault.isBelated = true ∨
    (earlier.fault.isLexical = true ∧ EndsSoon tokens later.position earlier.position)

/-! ## The tokens in view -/

/-- The fault of a token is a fault in a text, and the token is the last one. -/
theorem Cursor.scan_fault?_last {cursor : Cursor} {index : Nat} {lexed : Lexed}
    {diagnostic : Diagnostic} (found : cursor.scan.tokens[index]? = some lexed)
    (fault : diagnostic ∈ lexed.fault?) :
    diagnostic.fault.isLexical = true ∧ diagnostic.position = lexed.token.position ∧
      cursor.scan.tokens.length = index + 1 := by
  obtain ⟨form, rfl⟩ := cursor.scan_fault? lexed (List.mem_of_getElem? found) diagnostic fault
  refine ⟨rfl, rfl, ?_⟩
  have inside : index < cursor.scan.tokens.length := (List.getElem?_eq_some_iff.1 found).1
  by_contra different
  have before : cursor.scan.tokens.dropLast[index]? = some lexed := by
    rw [List.getElem?_dropLast, if_pos (by omega), found]
  rw [cursor.scan_dropLast_fault? lexed (List.mem_of_getElem? before)] at fault
  cases fault

namespace State

/-- The tokens from the current one to the end of input. -/
def remaining (state : State) : List Token :=
  (state.upcoming ++ [state.ending]).map Lexed.token

theorem current_mem_remaining (state : State) : state.current ∈ state.remaining := by
  unfold current remaining
  cases state.upcoming <;> simp

theorem current_le_of_mem_remaining {state : State} {token : Token}
    (inOrder : state.remaining.Pairwise fun left right => left.position.Before right.position)
    (member : token ∈ state.remaining) : state.current.position ≤ token.position := by
  unfold remaining at inOrder member
  unfold current
  cases ahead : state.upcoming with
  | nil =>
      rw [ahead] at member
      obtain rfl : token = state.ending.token := by simpa using member
      exact Position.le_rfl
  | cons lexed rest =>
      rw [ahead] at inOrder member
      rcases List.mem_cons.1 member with rfl | later
      · exact Position.le_rfl
      · exact ((List.pairwise_cons.1 inOrder).1 token later).le

end State

/-! ## The chronicle -/

/-- What holds of the diagnostics recorded in a state of the reading of a script. -/
structure State.Chronicle (source : String) (state : State) : Prop where
  upcoming : state.upcoming <:+ (Cursor.ofSource source).scan.tokens
  ending : state.ending = (Cursor.ofSource source).scan.ending
  grammatical : ∀ entry ∈ state.sink.entries, entry.fault.isLexical = false →
    entry.position ≤ state.current.position
  /-- A literal without its end is the last token, and its fault is recorded when it is in view. -/
  lexical : ∀ entry ∈ state.sink.entries, entry.fault.isLexical = true →
    state.upcoming.length ≤ 2 ∧ ∃ last, (Cursor.ofSource source).scan.tokens.getLast? = some last ∧
      entry.position = last.token.position
  entries : state.sink.entries.Pairwise (Diagnostic.MayPrecede (tokenize source).1)

namespace State.Chronicle

variable {source : String} {state : State}

theorem remaining_suffix (chronicle : state.Chronicle source) :
    state.remaining <:+ (tokenize source).1 := by
  obtain ⟨before, split⟩ := chronicle.upcoming
  refine ⟨before.map Lexed.token, ?_⟩
  simp [State.remaining, tokenize, Scan.allTokens, ← split, chronicle.ending]

theorem inOrder (chronicle : state.Chronicle source) :
    state.remaining.Pairwise fun left right => left.position.Before right.position :=
  (Cursor.ofSource source).scan_pairwise.sublist chronicle.remaining_suffix.sublist

/-- The current token only moves on. -/
theorem current_le {start failed : State} (chronicle : start.Chronicle source)
    (course : start.Reaches failed) : start.current.position ≤ failed.current.position := by
  apply current_le_of_mem_remaining chronicle.inOrder
  have suffix : failed.remaining <:+ start.remaining := by
    unfold remaining
    rw [course.ending_eq]
    obtain ⟨passed, split⟩ := course.upcoming_suffix
    exact ⟨passed.map Lexed.token, by simp [← split]⟩
  exact suffix.subset failed.current_mem_remaining

/-- A fault among the tokens ahead is that of the last of them, which is the last of the script. -/
theorem fault?_last (chronicle : state.Chronicle source) {index : Nat} {lexed : Lexed}
    {diagnostic : Diagnostic} (found : state.upcoming[index]? = some lexed)
    (fault : diagnostic ∈ lexed.fault?) :
    diagnostic.fault.isLexical = true ∧ diagnostic.position = lexed.token.position ∧
      state.upcoming.length = index + 1 := by
  obtain ⟨before, split⟩ := chronicle.upcoming
  have foundInAll : (Cursor.ofSource source).scan.tokens[before.length + index]? = some lexed := by
    rw [← split, List.getElem?_append_right (Nat.le_add_right _ _), Nat.add_sub_cancel_left, found]
  obtain ⟨isLexical, position, length⟩ := Cursor.scan_fault?_last foundInAll fault
  rw [← split, List.length_append] at length
  exact ⟨isLexical, position, by omega⟩

/-- The last token ahead is the last of the script. -/
theorem position_of_getLast? (chronicle : state.Chronicle source) {entry : Diagnostic}
    (member : entry ∈ state.sink.entries) (isLexical : entry.fault.isLexical = true) {last : Lexed}
    (isLast : state.upcoming.getLast? = some last) : entry.position = last.token.position := by
  obtain ⟨-, other, otherLast, position⟩ := chronicle.lexical entry member isLexical
  obtain ⟨before, split⟩ := chronicle.upcoming
  rw [← split, List.getLast?_append, isLast] at otherLast
  obtain rfl : last = other := by simpa using otherLast
  exact position

/-- A literal without its end stands before the end of input. -/
theorem le_ending (chronicle : state.Chronicle source) {entry : Diagnostic}
    (member : entry ∈ state.sink.entries) (isLexical : entry.fault.isLexical = true) :
    entry.position ≤ state.ending.token.position := by
  obtain ⟨-, last, isLast, position⟩ := chronicle.lexical entry member isLexical
  have inOrder := (Cursor.ofSource source).scan_pairwise
  rw [Scan.allTokens, List.map_append] at inOrder
  rw [position, chronicle.ending]
  exact ((List.pairwise_append.1 inOrder).2.2 _
    (List.mem_map_of_mem (List.mem_of_getLast? isLast)) _ (by simp)).le

/-- What is recorded may precede a diagnostic at the current token. -/
theorem mayPrecede_current (chronicle : state.Chronicle source) {diagnostic : Diagnostic}
    (here : diagnostic.position = state.current.position) :
    ∀ entry ∈ state.sink.entries, entry.MayPrecede (tokenize source).1 diagnostic := by
  intro entry member
  cases kind : entry.fault.isLexical with
  | false => exact .inl (here ▸ chronicle.grammatical entry member kind)
  | true =>
      have inView := (chronicle.lexical entry member kind).1
      have suffix := chronicle.remaining_suffix
      unfold State.remaining at suffix
      unfold State.current at here
      -- the literal is the current token, the next one, or passed
      match ahead : state.upcoming with
      | [] =>
          rw [ahead] at here
          exact .inl (here ▸ chronicle.le_ending member kind)
      | [literal] =>
          have position := chronicle.position_of_getLast? member kind (congrArg List.getLast? ahead)
          rw [ahead] at here
          exact .inl (position ▸ here ▸ Position.le_rfl)
      | [first, literal] =>
          have position := chronicle.position_of_getLast? member kind (congrArg List.getLast? ahead)
          rw [ahead] at here suffix
          exact .inr (.inr ⟨kind, first.token, [], literal.token, state.ending.token, suffix,
            Nat.zero_le _, here.symm, position.symm⟩)
      | first :: second :: third :: rest =>
          rw [ahead] at inView
          simp at inView

/-- The only fault that passing a token brings into view is that of a literal two tokens on. -/
theorem upcoming_eq_of_fault (chronicle : state.Chronicle source) {diagnostic : Diagnostic}
    (fault : diagnostic ∈ state.upcoming[2]?.bind Lexed.fault?) :
    diagnostic.fault.isLexical = true ∧ ∃ first second literal,
      state.upcoming = [first, second, literal] ∧
        diagnostic.position = literal.token.position := by
  obtain ⟨literal, found, isFault⟩ := Option.bind_eq_some_iff.1 fault
  obtain ⟨isLexical, position, length⟩ := chronicle.fault?_last found isFault
  obtain ⟨first, second, third, ahead⟩ := List.length_eq_three.1 length
  rw [ahead] at found
  obtain rfl : third = literal := by simpa using found
  exact ⟨isLexical, first, second, third, ahead, position⟩

/-- What passing a token records is the fault of a literal two tokens on. -/
theorem advance_entry (chronicle : state.Chronicle source) {entry : Diagnostic}
    (member : entry ∈ state.advance.sink.entries) : entry ∈ state.sink.entries ∨
      (entry.fault.isLexical = true ∧ ∃ first second literal,
        state.upcoming = [first, second, literal] ∧ entry.position = literal.token.position) := by
  rw [advance_sink] at member
  exact (Sink.mem_pushOption member).imp_right chronicle.upcoming_eq_of_fault

theorem advance (chronicle : state.Chronicle source) : state.advance.Chronicle source where
  upcoming := (State.Reaches.refl state).advance.upcoming_suffix.trans chronicle.upcoming
  ending := (State.Reaches.advance_ending state).trans chronicle.ending
  grammatical entry member kind := by
    rcases chronicle.advance_entry member with before | ⟨isLexical, -⟩
    · exact Position.le_trans (chronicle.grammatical entry before kind)
        (chronicle.current_le (State.Reaches.refl state).advance)
    · rw [kind] at isLexical
      cases isLexical
  lexical entry member kind := by
    rw [State.Reaches.advance_upcoming]
    rcases chronicle.advance_entry member with before | ⟨-, first, second, literal, ahead, position⟩
    · obtain ⟨inView, last⟩ := chronicle.lexical entry before kind
      exact ⟨by rw [List.length_tail]; omega, last⟩
    · obtain ⟨passed, split⟩ := chronicle.upcoming
      exact ⟨by simp [ahead], literal, by simp [← split, ahead], position⟩
  entries := by
    rw [advance_sink]
    refine Sink.pairwise_pushOption chronicle.entries fun diagnostic fault entry member => ?_
    obtain ⟨-, first, second, literal, ahead, position⟩ := chronicle.upcoming_eq_of_fault fault
    cases kind : entry.fault.isLexical with
    | false =>
        have inRemaining : literal.token ∈ state.remaining := by simp [State.remaining, ahead]
        exact .inl (Position.le_trans (chronicle.grammatical entry member kind)
          (position ▸ current_le_of_mem_remaining chronicle.inOrder inRemaining))
    | true =>
        have inView := (chronicle.lexical entry member kind).1
        rw [ahead] at inView
        simp at inView

/-- What is recorded may precede a diagnostic at the token just passed. -/
theorem mayPrecede_passed (chronicle : state.Chronicle source) {diagnostic : Diagnostic}
    (passed : diagnostic.position = state.current.position) :
    ∀ entry ∈ state.advance.sink.entries, entry.MayPrecede (tokenize source).1 diagnostic := by
  intro entry member
  rcases chronicle.advance_entry member with before | ⟨kind, first, second, literal, ahead, position⟩
  · exact chronicle.mayPrecede_current passed entry before
  · have suffix := chronicle.remaining_suffix
    unfold State.remaining at suffix
    unfold State.current at passed
    rw [ahead] at suffix passed
    exact .inr (.inr ⟨kind, first.token, [second.token], literal.token, state.ending.token, suffix,
      Nat.le_refl _, passed.symm, position.symm⟩)

theorem ofSource (source : String) : (State.ofSource source).Chronicle source := by
  have recorded : ∀ entry ∈ (State.ofSource source).sink.entries,
      entry.fault.isLexical = true ∧ (Cursor.ofSource source).scan.tokens.length ≤ 2 ∧
        ∃ last, (Cursor.ofSource source).scan.tokens.getLast? = some last ∧
          entry.position = last.token.position := by
    intro entry member
    rcases Sink.mem_pushAll member with none | fault
    · cases none
    · obtain ⟨lexed, inView, isFault⟩ := List.mem_filterMap.1 fault
      obtain ⟨index, found⟩ := List.mem_iff_getElem?.1 inView
      rw [List.getElem?_take] at found
      split at found
      · next inside =>
          obtain ⟨isLexical, position, length⟩ := Cursor.scan_fault?_last found isFault
          refine ⟨isLexical, by omega, lexed, ?_, position⟩
          rw [List.getLast?_eq_getElem?, length, Nat.add_sub_cancel, found]
      · cases found
  refine ⟨List.suffix_rfl, rfl, fun entry member kind => ?_, fun entry member _ =>
    (recorded entry member).2, List.pairwise_of_forall_mem_list fun left inLeft right inRight => ?_⟩
  · rw [(recorded entry member).1] at kind
    cases kind
  · obtain ⟨-, -, last, isLast, positionLeft⟩ := recorded left inLeft
    obtain ⟨-, -, other, isOther, positionRight⟩ := recorded right inRight
    obtain rfl : last = other := Option.some.inj (isLast.symm.trans isOther)
    exact .inl (positionLeft ▸ positionRight ▸ Position.le_rfl)

end State.Chronicle

/-- A diagnostic that may be recorded in a state of the reading of a script. -/
structure State.Due (source : String) (state : State) (diagnostic : Diagnostic) : Prop where
  grammatical : diagnostic.fault.isLexical = false
  position_le : diagnostic.position ≤ state.current.position
  entries : ∀ entry ∈ state.sink.entries, entry.MayPrecede (tokenize source).1 diagnostic

theorem State.Chronicle.report {source : String} {state : State} {diagnostic : Diagnostic}
    (due : state.Due source diagnostic) (chronicle : state.Chronicle source) :
    (state.report diagnostic).Chronicle source where
  upcoming := chronicle.upcoming
  ending := chronicle.ending
  grammatical entry member kind := by
    rcases Sink.mem_push member with before | rfl
    · exact chronicle.grammatical entry before kind
    · exact due.position_le
  lexical entry member kind := by
    rcases Sink.mem_push member with before | rfl
    · exact chronicle.lexical entry before kind
    · rw [due.grammatical] at kind
      cases kind
  entries := Sink.pairwise_push chronicle.entries due.entries

/-- A fault that is found is due where it is found. -/
theorem State.Chronicle.due {source : String} {start failed : State} {diagnostic : Diagnostic}
    (chronicle : start.Chronicle source) (finds : start.Finds diagnostic.fault failed)
    (about : diagnostic.About start.current) (grammatical : diagnostic.fault.isLexical = false) :
    failed.Due source diagnostic := by
  have place : diagnostic.position = start.current.position := about.1
  cases finds with
  | here => exact ⟨grammatical, place ▸ Position.le_rfl, chronicle.mayPrecede_current place⟩
  | passed =>
      exact ⟨grammatical, place ▸ chronicle.current_le (State.Reaches.refl start).advance,
        chronicle.mayPrecede_passed place⟩
  | belated belated course =>
      exact ⟨grammatical, place ▸ chronicle.current_le course, fun _ _ => .inr (.inl belated)⟩

/-- The diagnostics of a script are recorded in the order of the chronicle. -/
def Invariant.chronicle (source : String) : Invariant where
  Holds := State.Chronicle source
  Allowed := State.Due source
  advance chronicle := chronicle.advance
  report due chronicle := chronicle.report due
  closeTo _ chronicle := { chronicle with }
  deeper _ chronicle := { chronicle with }
  allowed_deeper _ due := { due with }
  about chronicle _ finds about grammatical _ := chronicle.due finds about grammatical

/-! ## The diagnostics of a script -/

/-- The reading of a script keeps the chronicle to its end. -/
theorem parse_chronicle (source : String) :
    (State.ofSource source).readProgram.2.Chronicle source :=
  have start : (Invariant.chronicle source).Holds (State.ofSource source) := .ofSource source
  Production.holds_readProgram _ start

/-- The diagnostics of a script are in source order, with two exceptions. A diagnostic comes before
one that stands earlier only if that one is of a whole statement, a `try` without handlers or an
export of something else than a declaration or an assignment, or if it is itself that of a literal
that nothing ends, and that one stands at most two tokens before the literal. -/
theorem parse_mayPrecede (source : String) :
    (parse source).2.entries.Pairwise (Diagnostic.MayPrecede (tokenize source).1) :=
  (parse_chronicle source).entries

/-- The string that nothing ends is in view when the operator before it is found to start no
expression. -/
theorem parse_literal_before_operator :
    ¬ (parse "a = * \"b").2.entries.Pairwise fun earlier later =>
      earlier.position ≤ later.position := by
  decide +kernel

/-- The bracket inside the block is reported before the `try` that the block belongs to. -/
example : (parse "try \x7b\n)\n\x7d").2.entries.map Diagnostic.position = [⟨2, 1⟩, ⟨1, 1⟩] := by
  decide +kernel

/-- Without faults in texts and without belated faults, diagnostics are in source order. -/
theorem parse_positions_inOrder {source : String} (sound : (tokenize source).2.entries = [])
    (prompt : ∀ entry ∈ (parse source).2.entries, entry.fault.isBelated = false) :
    (parse source).2.entries.Pairwise fun earlier later => earlier.position ≤ later.position := by
  have grammatical := parse_filter_isLexical source
  rw [sound, List.filter_eq_nil_iff] at grammatical
  refine (parse_chronicle source).entries.imp_of_mem fun inEarlier inLater mayPrecede => ?_
  rcases mayPrecede with inOrder | belated | ⟨isLexical, -⟩
  · exact inOrder
  · exact absurd ((prompt _ inLater).symm.trans belated) Bool.false_ne_true
  · exact absurd isLexical (grammatical _ inEarlier)

end AgentScript
