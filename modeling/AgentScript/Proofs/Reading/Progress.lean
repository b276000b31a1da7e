import AgentScript.Proofs.Reading.Course.Productions
import AgentScript.Proofs.Scan.Spelling

/-!
Contract: successful reading passes tokens, and repetition ends by itself.

Owns:
- scanned states, whose tokens ahead are well spelled and none of which is the end of input;
- productions that pass at least one token when they succeed;
- repetition as the rounds it makes, free of the bound that the definition carries.
-/

set_option autoImplicit false

namespace AgentScript

/-- What holds of the tokens ahead in a state that comes from a scan. -/
structure State.Scanned (state : State) : Prop where
  ending_kind : state.ending.token.kind = .endOfInput
  kind_ne : ∀ lexed ∈ state.upcoming, lexed.token.kind ≠ .endOfInput
  wellSpelled : ∀ lexed ∈ state.upcoming, lexed.token.WellSpelled

theorem State.scanned_ofSource (source : String) : (State.ofSource source).Scanned where
  ending_kind := (Cursor.scan_ending _).1
  kind_ne := Cursor.scan_tokens_kind_ne _
  wellSpelled := Cursor.scan_wellSpelled _

namespace State.Scanned

variable {state after : State}

theorem of_reaches (scanned : state.Scanned) (course : state.Reaches after) : after.Scanned where
  ending_kind := by rw [course.ending_eq, scanned.ending_kind]
  kind_ne := fun lexed member => scanned.kind_ne lexed (course.upcoming_suffix.subset member)
  wellSpelled := fun lexed member => scanned.wellSpelled lexed (course.upcoming_suffix.subset member)

theorem advance (scanned : state.Scanned) : state.advance.Scanned :=
  scanned.of_reaches (.advance (.refl state))

theorem deeper (scanned : state.Scanned) (nesting : Nat) :
    { state with nesting := nesting }.Scanned :=
  ⟨scanned.ending_kind, scanned.kind_ne, scanned.wellSpelled⟩

theorem kind_eq_endOfInput_iff (scanned : state.Scanned) :
    state.kind = .endOfInput ↔ state.upcoming = [] := by
  unfold State.kind State.current
  cases ahead : state.upcoming with
  | nil => simp [scanned.ending_kind]
  | cons lexed rest =>
      simp only [List.headD_cons, reduceCtorEq, iff_false]
      exact scanned.kind_ne lexed (by simp [ahead])

/-- Before the end of input there is a token, and it is the current one. -/
theorem exists_current (scanned : state.Scanned) (token : state.kind ≠ .endOfInput) :
    ∃ lexed, state.upcoming = lexed :: state.advance.upcoming ∧ lexed.token = state.current := by
  rw [Reaches.advance_upcoming, State.current]
  cases ahead : state.upcoming with
  | nil => exact absurd (scanned.kind_eq_endOfInput_iff.2 ahead) token
  | cons lexed rest => exact ⟨lexed, rfl, rfl⟩

theorem current_wellSpelled (scanned : state.Scanned) (token : state.kind ≠ .endOfInput) :
    state.current.WellSpelled := by
  obtain ⟨lexed, ahead, current⟩ := scanned.exists_current token
  rw [← current]
  exact scanned.wellSpelled lexed (by simp [ahead])

theorem advance_lt (scanned : state.Scanned) (token : state.kind ≠ .endOfInput) :
    state.advance.upcoming.length < state.upcoming.length := by
  obtain ⟨lexed, ahead, _⟩ := scanned.exists_current token
  rw [ahead]
  simp

/-- A token that is reported is passed like any other. -/
theorem report_advance_lt (scanned : state.Scanned) (token : state.kind ≠ .endOfInput)
    (diagnostic : Diagnostic) :
    (state.report diagnostic).advance.upcoming.length < state.upcoming.length := by
  have passes := scanned.advance_lt token
  rwa [Reaches.advance_upcoming] at passes ⊢

end State.Scanned

namespace Production

variable {α β : Type}

/-- A production that passes at least one token when it succeeds. -/
def Consumes (production : Production α) : Prop :=
  ∀ (state after : State) (value : α), state.Scanned → production state = .ok value after →
    after.upcoming.length < state.upcoming.length

/-- What passes a token starts at a token. -/
theorem Consumes.token {production : Production α} (consumes : production.Consumes)
    {state after : State} {value : α} (scanned : state.Scanned)
    (read : production state = .ok value after) : state.kind ≠ .endOfInput := by
  intro ended
  have passes := consumes state after value scanned read
  rw [scanned.kind_eq_endOfInput_iff.1 ended] at passes
  exact Nat.not_lt_zero _ passes

theorem consumes_tooDeep : Consumes (tooDeep : Production α) := fun _ _ _ _ read => nomatch read

theorem Consumes.bind {production : Production α} {next : α → Production β}
    (consumes : production.Consumes) (proceeds : ∀ value, (next value).Proceeds) :
    Consumes (production >>= next) := by
  intro state after value scanned read
  obtain ⟨first, middle, readFirst, readNext⟩ := bind_ok_iff.1 read
  exact Nat.lt_of_le_of_lt ((proceeds first).of_ok readNext).upcoming_length_le
    (consumes state middle first scanned readFirst)

theorem Proceeds.bind_consumes {production : Production α} {next : α → Production β}
    (proceeds : production.Proceeds) (consumes : ∀ value, (next value).Consumes) :
    Consumes (production >>= next) := by
  intro state after value scanned read
  obtain ⟨first, middle, readFirst, readNext⟩ := bind_ok_iff.1 read
  have course := proceeds.of_ok readFirst
  exact Nat.lt_of_lt_of_le (consumes first middle after value (scanned.of_reaches course) readNext)
    course.upcoming_length_le

theorem Consumes.deeper {production : Production α} (consumes : production.Consumes) :
    (deeper production).Consumes := by
  intro state after value scanned read
  obtain ⟨inside, readInside, rfl⟩ := deeper_ok_iff.1 read
  exact consumes { state with nesting := state.nesting + 1 } inside value (scanned.deeper _) readInside

theorem consumes_expectAs {kind : Kind} (token : kind ≠ .endOfInput) (expected : String) :
    (expectAs kind expected).Consumes := by
  intro state after value scanned read
  obtain ⟨rfl, _, rfl⟩ := expectAs_ok_iff.1 read
  exact scanned.advance_lt token

theorem consumes_expect {kind : Kind} (token : kind ≠ .endOfInput) : (expect kind).Consumes :=
  consumes_expectAs token kind.text

/-! ## Repetition -/

section Iteration

variable {continues : State → Bool} {round : α → Production α}

/-- Each round that is made passes at least one token. -/
def RoundsConsume (continues : State → Bool) (round : α → Production α) : Prop :=
  ∀ (state after : State) (value next : α), state.Scanned → continues state = true →
    round value state = .ok next after → after.upcoming.length < state.upcoming.length

private theorem iterateWithin_bound (proceeds : ∀ value, (round value).Proceeds)
    (consume : RoundsConsume continues round) (left right : List Lexed) (state : State)
    (value : α) (scanned : state.Scanned) (leftEnough : state.upcoming.length < left.length)
    (rightEnough : state.upcoming.length < right.length) :
    iterateWithin continues round left value state =
      iterateWithin continues round right value state := by
  induction left generalizing right state value with
  | nil => simp at leftEnough
  | cons _ left inductionHypothesis =>
      cases right with
      | nil => simp at rightEnough
      | cons _ right =>
          simp only [iterateWithin, get_bind, ite_run]
          split
          · next goesOn =>
              cases read : round value state with
              | error diagnostic failed => rw [bind_run_of_error read, bind_run_of_error read]
              | ok next middle =>
                  have shorter := consume state middle value next scanned goesOn read
                  simp only [List.length_cons] at leftEnough rightEnough
                  rw [bind_run_of_ok read, bind_run_of_ok read]
                  exact inductionHypothesis right middle next
                    (scanned.of_reaches ((proceeds value).of_ok read)) (by omega) (by omega)
          · rfl

/-- Repetition is a round and the repetition after it, or nothing. -/
theorem iterateWhile_run (proceeds : ∀ value, (round value).Proceeds)
    (consume : RoundsConsume continues round) {state : State} (scanned : state.Scanned) (value : α) :
    iterateWhile continues round value state =
      if continues state then (round value >>= iterateWhile continues round) state
      else .ok value state := by
  unfold iterateWhile
  rw [get_bind, iterateWithin, get_bind, ite_run]
  split
  · next goesOn =>
      cases read : round value state with
      | error diagnostic failed => rw [bind_run_of_error read, bind_run_of_error read]
      | ok next middle =>
          have shorter := consume state middle value next scanned goesOn read
          rw [bind_run_of_ok read, bind_run_of_ok read]
          exact iterateWithin_bound proceeds consume _ _ middle next
            (scanned.of_reaches ((proceeds value).of_ok read)) shorter (by simp)
  · rfl

/-- The rounds of a repetition that succeeds. -/
inductive Iterated (continues : State → Bool) (round : α → Production α) :
    α → State → α → State → Prop where
  | stop {state : State} (value : α) :
      continues state = false → Iterated continues round value state value state
  | round {state middle after : State} {value next result : α} :
      continues state = true → round value state = .ok next middle →
      Iterated continues round next middle result after →
      Iterated continues round value state result after

theorem Iterated.reaches (proceeds : ∀ value, (round value).Proceeds) {state after : State}
    {value result : α} (iterated : Iterated continues round value state result after) :
    state.Reaches after := by
  induction iterated with
  | stop => exact .refl _
  | round _ read _ inductionHypothesis =>
      exact ((proceeds _).of_ok read).trans inductionHypothesis

theorem iterateWhile_ok_iff (proceeds : ∀ value, (round value).Proceeds)
    (consume : RoundsConsume continues round) {state after : State} (scanned : state.Scanned)
    {value result : α} :
    iterateWhile continues round value state = .ok result after ↔
      Iterated continues round value state result after := by
  constructor
  · intro read
    induction rounds : state.upcoming.length using Nat.strongRecOn
      generalizing state value with
    | ind rounds inductionHypothesis =>
        rw [iterateWhile_run proceeds consume scanned] at read
        split at read
        · next goesOn =>
            obtain ⟨next, middle, readRound, readRest⟩ := bind_ok_iff.1 read
            have shorter := consume state middle value next scanned goesOn readRound
            exact .round goesOn readRound (inductionHypothesis _ (rounds ▸ shorter)
              (scanned.of_reaches ((proceeds value).of_ok readRound)) readRest rfl)
        · next stops =>
            cases read
            exact .stop _ (by simpa using stops)
  · intro iterated
    induction iterated with
    | stop value stops =>
        rw [iterateWhile_run proceeds consume scanned]
        simp [stops]
    | round goesOn readRound _ inductionHypothesis =>
        rw [iterateWhile_run proceeds consume scanned]
        simp only [goesOn, ↓reduceIte]
        exact bind_ok_iff.2 ⟨_, _, readRound,
          inductionHypothesis (scanned.of_reaches ((proceeds _).of_ok readRound))⟩

end Iteration

section Many

variable {continues : State → Bool} {item : Production α}

private theorem manyWithin_bound (continues : State → Bool) (proceeds : item.Proceeds)
    (consumes : item.Consumes)
    (left right : List Lexed) (state : State) (scanned : state.Scanned)
    (leftEnough : state.upcoming.length < left.length)
    (rightEnough : state.upcoming.length < right.length) :
    manyWithin continues item left state = manyWithin continues item right state := by
  induction left generalizing right state with
  | nil => simp at leftEnough
  | cons _ left inductionHypothesis =>
      cases right with
      | nil => simp at rightEnough
      | cons _ right =>
          simp only [manyWithin, get_bind, ite_run]
          split
          · cases read : item state with
            | error diagnostic failed => rw [bind_run_of_error read, bind_run_of_error read]
            | ok first middle =>
                have shorter := consumes state middle first scanned read
                simp only [List.length_cons] at leftEnough rightEnough
                have rest := inductionHypothesis right middle
                  (scanned.of_reaches (proceeds.of_ok read)) (by omega) (by omega)
                rw [bind_run_of_ok read, bind_run_of_ok read]
                exact bind_run_congr rest
          · rfl

/-- Reading many items is reading one and then many, or nothing. -/
theorem manyWhile_run (proceeds : item.Proceeds) (consumes : item.Consumes) {state : State}
    (scanned : state.Scanned) :
    manyWhile continues item state =
      if continues state then
        (item >>= fun first => manyWhile continues item >>= fun rest =>
          (pure (first :: rest) : Production (List α))) state
      else .ok [] state := by
  conv => lhs; unfold manyWhile
  rw [get_bind, manyWithin, get_bind, ite_run]
  split
  · cases read : item state with
    | error diagnostic failed => rw [bind_run_of_error read, bind_run_of_error read]
    | ok first middle =>
        have shorter := consumes state middle first scanned read
        have rest := manyWithin_bound continues proceeds consumes state.upcoming
          (middle.ending :: middle.upcoming) middle (scanned.of_reaches (proceeds.of_ok read))
          shorter (by simp)
        rw [bind_run_of_ok read, bind_run_of_ok read]
        exact bind_run_congr rest
  · rfl

/-- The items of a repetition that succeeds. -/
inductive Repeated (continues : State → Bool) (item : Production α) :
    State → List α → State → Prop where
  | stop {state : State} : continues state = false → Repeated continues item state [] state
  | item {state middle after : State} {first : α} {rest : List α} :
      continues state = true → item state = .ok first middle →
      Repeated continues item middle rest after →
      Repeated continues item state (first :: rest) after

theorem Repeated.reaches (proceeds : item.Proceeds) {state after : State} {items : List α}
    (repeated : Repeated continues item state items after) : state.Reaches after := by
  induction repeated with
  | stop => exact .refl _
  | item _ read _ inductionHypothesis => exact (proceeds.of_ok read).trans inductionHypothesis

theorem manyWhile_ok_iff (proceeds : item.Proceeds) (consumes : item.Consumes)
    {state after : State} (scanned : state.Scanned) {items : List α} :
    manyWhile continues item state = .ok items after ↔
      Repeated continues item state items after := by
  constructor
  · intro read
    induction rounds : state.upcoming.length using Nat.strongRecOn
      generalizing state items with
    | ind rounds inductionHypothesis =>
        rw [manyWhile_run proceeds consumes scanned] at read
        split at read
        · next goesOn =>
            obtain ⟨first, middle, readItem, readRest⟩ := bind_ok_iff.1 read
            obtain ⟨rest, readMore, rfl⟩ := bind_pure_ok_iff.1 readRest
            have shorter := consumes state middle first scanned readItem
            exact .item goesOn readItem (inductionHypothesis _ (rounds ▸ shorter)
              (scanned.of_reaches (proceeds.of_ok readItem)) readMore rfl)
        · next stops =>
            cases read
            exact .stop (by simpa using stops)
  · intro repeated
    induction repeated with
    | stop stops =>
        rw [manyWhile_run proceeds consumes scanned]
        simp [stops]
    | item goesOn readItem _ inductionHypothesis =>
        rw [manyWhile_run proceeds consumes scanned]
        simp only [goesOn, ↓reduceIte]
        exact bind_ok_iff.2 ⟨_, _, readItem, bind_pure_ok_iff.2
          ⟨_, inductionHypothesis (scanned.of_reaches (proceeds.of_ok readItem)), rfl⟩⟩

end Many

end Production

end AgentScript
