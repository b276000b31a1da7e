import AgentScript.Grammar.Program
import AgentScript.Proofs.Diagnostic.Recorded
import AgentScript.Proofs.Reading.Outcome

/-!
Contract: the states that reading can lead to.

Owns:
- the course of a reading: passing a token, recording a diagnostic, forgetting brackets, and a
  course one level further in;
- what every course keeps: the tokens not passed yet, the end of input, the level of nesting, and
  the diagnostics recorded before;
- the open brackets and the faults of the tokens of a course without diagnostics;
- that every production stays on such a course, whether it succeeds or fails.
-/

set_option autoImplicit false

namespace AgentScript

theorem State.report_sink_ne_empty (state : State) (diagnostic : Diagnostic) :
    (state.report diagnostic).sink ≠ Sink.empty :=
  Sink.push_ne_empty state.sink diagnostic

/-- The states that can follow on a state while a script is read. -/
inductive State.Reaches : State → State → Prop where
  | refl (state : State) : Reaches state state
  | advance {start state : State} : Reaches start state → Reaches start state.advance
  | report {start state : State} (diagnostic : Diagnostic) :
      Reaches start state → Reaches start (state.report diagnostic)
  /-- Brackets are forgotten only after a diagnostic. -/
  | closeTo {start state : State} (depth : Nat) :
      state.sink ≠ Sink.empty → Reaches start state → Reaches start (state.closeTo depth)
  | nested {start state inside : State} :
      Reaches start state → Reaches { state with nesting := state.nesting + 1 } inside →
      Reaches start { inside with nesting := inside.nesting - 1 }

/-- The end of input is not passed. -/
theorem State.advance_of_nil {state : State} (ended : state.upcoming = []) :
    state.advance = state := by
  unfold State.advance
  rw [ended]

/-- Passing a token brings the second one after it into view. -/
theorem State.advance_sink (state : State) :
    state.advance.sink = state.sink.pushOption (state.upcoming[2]?.bind Lexed.fault?) := by
  unfold State.advance
  cases state.upcoming <;> rfl

namespace State.Reaches

theorem trans {first second third : State} (left : first.Reaches second)
    (right : second.Reaches third) : first.Reaches third := by
  induction right with
  | refl => exact left
  | advance _ inductionHypothesis => exact .advance (inductionHypothesis left)
  | report diagnostic _ inductionHypothesis => exact .report diagnostic (inductionHypothesis left)
  | closeTo depth reported _ inductionHypothesis =>
      exact .closeTo depth reported (inductionHypothesis left)
  | nested _ inside inductionHypothesis _ => exact .nested (inductionHypothesis left) inside

theorem advance_upcoming (state : State) : state.advance.upcoming = state.upcoming.tail := by
  obtain ⟨upcoming, ending, lastLine, openBrackets, nesting, sink⟩ := state
  cases upcoming <;> rfl

theorem upcoming_suffix {start state : State} (course : start.Reaches state) :
    state.upcoming <:+ start.upcoming := by
  induction course with
  | refl => exact List.suffix_rfl
  | advance _ inductionHypothesis =>
      rw [advance_upcoming]
      exact (List.tail_suffix _).trans inductionHypothesis
  | report _ _ inductionHypothesis => exact inductionHypothesis
  | closeTo _ _ _ inductionHypothesis => exact inductionHypothesis
  | nested _ _ outer inner => exact inner.trans outer

theorem upcoming_length_le {start state : State} (course : start.Reaches state) :
    state.upcoming.length ≤ start.upcoming.length :=
  course.upcoming_suffix.length_le

theorem advance_ending (state : State) : state.advance.ending = state.ending := by
  unfold State.advance
  split <;> rfl

theorem ending_eq {start state : State} (course : start.Reaches state) :
    state.ending = start.ending := by
  induction course with
  | refl => rfl
  | advance _ inductionHypothesis => rw [advance_ending, inductionHypothesis]
  | report _ _ inductionHypothesis => exact inductionHypothesis
  | closeTo _ _ _ inductionHypothesis => exact inductionHypothesis
  | nested _ _ outer inner => exact inner.trans outer

theorem advance_nesting (state : State) : state.advance.nesting = state.nesting := by
  unfold State.advance
  split <;> rfl

/-- A course ends at the level of nesting it starts at. -/
theorem nesting_eq {start state : State} (course : start.Reaches state) :
    state.nesting = start.nesting := by
  induction course with
  | refl => rfl
  | advance _ inductionHypothesis => rw [advance_nesting, inductionHypothesis]
  | report _ _ inductionHypothesis => exact inductionHypothesis
  | closeTo _ _ _ inductionHypothesis => exact inductionHypothesis
  | nested _ _ outer inner =>
      simp only at inner ⊢
      omega

theorem advance_sink_extends (state : State) :
    state.sink.entries <+: state.advance.sink.entries := by
  unfold State.advance
  split
  · exact List.prefix_rfl
  · exact Sink.prefix_pushOption _ _

/-- A course only adds diagnostics, and only after those that are there. -/
theorem sink_prefix {start state : State} (course : start.Reaches state) :
    start.sink.entries <+: state.sink.entries := by
  induction course with
  | refl => exact List.prefix_rfl
  | advance _ inductionHypothesis => exact inductionHypothesis.trans (advance_sink_extends _)
  | report diagnostic _ inductionHypothesis =>
      exact inductionHypothesis.trans (Sink.prefix_push _ diagnostic)
  | closeTo _ _ _ inductionHypothesis => exact inductionHypothesis
  | nested _ _ outer inner => exact outer.trans inner

/-- Nothing is recorded along a course that ends with nothing recorded. -/
theorem sink_eq_empty {start state : State} (course : start.Reaches state)
    (clean : state.sink = Sink.empty) : start.sink = Sink.empty := by
  have leading := course.sink_prefix
  rw [clean] at leading
  exact congrArg Sink.mk (List.prefix_nil.1 leading)

/-- The last passed token of a course is one of those ahead at its start, if any is passed. -/
theorem lastLine_eq {start state : State} (course : start.Reaches state) :
    state.lastLine = start.lastLine ∨ ∃ lexed ∈ start.upcoming, state.lastLine = lexed.endLine := by
  induction course with
  | refl => exact .inl rfl
  | @advance start state course inductionHypothesis =>
      cases ahead : state.upcoming with
      | nil =>
          rw [State.advance_of_nil ahead]
          exact inductionHypothesis
      | cons lexed rest =>
          refine .inr ⟨lexed, course.upcoming_suffix.subset (by simp [ahead]), ?_⟩
          unfold State.advance
          rw [ahead]
  | report _ _ inductionHypothesis => exact inductionHypothesis
  | closeTo _ _ _ inductionHypothesis => exact inductionHypothesis
  | @nested start state inside course courseInside outer inner =>
      rcases inner with same | ⟨lexed, member, same⟩
      · change inside.lastLine = _ at same
        change inside.lastLine = _ ∨ ∃ lexed ∈ _, inside.lastLine = _
        rw [same]
        exact outer
      · exact .inr ⟨lexed, course.upcoming_suffix.subset member, same⟩

/-- Brackets open and close with the tokens that a course without diagnostics passes. -/
theorem openBrackets_eq {start state : State} (course : start.Reaches state)
    (clean : state.sink = Sink.empty) :
    ∃ passed, start.upcoming = passed ++ state.upcoming ∧
      state.openBrackets = (passed.map Lexed.token).foldl
        (fun openBrackets token => token.kind.bracketsAfter openBrackets) start.openBrackets := by
  induction course with
  | refl => exact ⟨[], rfl, rfl⟩
  | @advance start state course inductionHypothesis =>
      have cleanBefore := (Reaches.refl state).advance.sink_eq_empty clean
      obtain ⟨passed, split, brackets⟩ := inductionHypothesis cleanBefore
      cases ahead : state.upcoming with
      | nil =>
          exact ⟨passed, by simp [split, advance_upcoming, ahead],
            by simp [State.advance, ahead, brackets]⟩
      | cons lexed rest =>
          exact ⟨passed ++ [lexed], by simp [split, advance_upcoming, ahead],
            by simp [State.advance, ahead, brackets]⟩
  | @report start state diagnostic _ _ =>
      exact absurd clean (state.report_sink_ne_empty diagnostic)
  | closeTo _ reported _ _ => exact absurd clean reported
  | nested _ inside outer inner =>
      obtain ⟨passedInside, splitInside, bracketsInside⟩ := inner clean
      obtain ⟨passed, split, brackets⟩ := outer (inside.sink_eq_empty clean)
      exact ⟨passed ++ passedInside, by simpa [split] using splitInside,
        by simpa [brackets] using bracketsInside⟩

/-- On a course without diagnostics, no token has a fault that is passed or among the two ahead. -/
theorem fault?_eq {start state : State} (course : start.Reaches state)
    (clean : state.sink = Sink.empty)
    (ahead : ∀ lexed ∈ start.upcoming.take 2, lexed.fault? = none) :
    ∃ passed, start.upcoming = passed ++ state.upcoming ∧
      ∀ lexed ∈ passed ++ state.upcoming.take 2, lexed.fault? = none := by
  induction course with
  | refl => exact ⟨[], rfl, ahead⟩
  | @advance start state course inductionHypothesis =>
      have cleanBefore := (Reaches.refl state).advance.sink_eq_empty clean
      obtain ⟨passed, split, none⟩ := inductionHypothesis cleanBefore ahead
      rw [advance_upcoming]
      cases view : state.upcoming with
      | nil => exact ⟨passed, by simp [split, view], by simpa [view] using none⟩
      | cons lexed rest =>
          refine ⟨passed ++ [lexed], by simp [split, view], ?_⟩
          rw [view] at none
          match rest with
          | [] => simpa using none
          | [second] => simpa using none
          | second :: third :: more =>
              -- the token that comes into view has no fault, as that would be recorded
              have thirdNone : third.fault? = .none := by
                cases fault : third.fault? with
                | none => rfl
                | some diagnostic =>
                    simp only [State.advance, view, List.getElem?_cons_succ, List.getElem?_cons_zero,
                      Option.bind_some, fault] at clean
                    exact absurd clean (Sink.push_ne_empty _ diagnostic)
              intro other member
              simp only [List.tail_cons, List.append_assoc, List.singleton_append, List.mem_append,
                List.mem_cons, List.take_succ_cons, List.take_zero, List.not_mem_nil,
                or_false] at member none
              rcases member with before | rfl | rfl | rfl
              · exact none other (.inl before)
              · exact none other (.inr (.inl rfl))
              · exact none other (.inr (.inr rfl))
              · exact thirdNone
  | @report start state diagnostic _ _ =>
      exact absurd clean (state.report_sink_ne_empty diagnostic)
  | closeTo _ reported _ _ => exact absurd clean reported
  | nested _ inside outer inner =>
      obtain ⟨passed, split, none⟩ := outer (inside.sink_eq_empty clean) ahead
      obtain ⟨passedInside, splitInside, noneInside⟩ :=
        inner clean fun lexed member => none lexed (List.mem_append_right _ member)
      refine ⟨passed ++ passedInside, by simpa [split] using splitInside, ?_⟩
      intro lexed member
      rw [List.append_assoc] at member
      rcases List.mem_append.1 member with before | within
      · exact none lexed (List.mem_append_left _ before)
      · exact noneInside lexed within

end State.Reaches

namespace Production

variable {α β : Type}

/-- The state that a production ends in, whether it succeeds or fails. -/
def final : EStateM.Result Diagnostic State α → State
  | .ok _ after => after
  | .error _ failed => failed

/-- Wherever a production starts, it ends on a course from there. -/
def Proceeds (production : Production α) : Prop :=
  ∀ state : State, state.Reaches (final (production state))

theorem Proceeds.of_ok {production : Production α} (proceeds : production.Proceeds)
    {state after : State} {value : α} (read : production state = .ok value after) :
    state.Reaches after := by
  have course := proceeds state
  rw [read] at course
  exact course

theorem proceeds_pure (value : α) : (pure value : Production α).Proceeds := fun _ => .refl _

theorem proceeds_throw (diagnostic : Diagnostic) :
    (throw diagnostic : Production α).Proceeds := fun _ => .refl _

theorem proceeds_get : (get : Production State).Proceeds := fun _ => .refl _

theorem proceeds_currentKind : currentKind.Proceeds := fun _ => .refl _

theorem proceeds_take : take.Proceeds := fun _ => .advance (.refl _)

theorem proceeds_failHere (fault : Fault) : (failHere fault : Production α).Proceeds :=
  fun _ => .refl _

theorem proceeds_failUnexpected (expected : String) :
    (failUnexpected expected : Production α).Proceeds :=
  fun _ => .refl _

theorem proceeds_tooDeep : (tooDeep : Production α).Proceeds := fun _ => .refl _

theorem Proceeds.bind {production : Production α} {next : α → Production β}
    (first : production.Proceeds) (second : ∀ value, (next value).Proceeds) :
    (production >>= next).Proceeds := by
  intro state
  have course := first state
  cases result : production state with
  | ok value middle =>
      rw [result] at course
      rw [bind_run_of_ok result]
      exact course.trans (second value middle)
  | error diagnostic failed =>
      rw [result] at course
      rw [bind_run_of_error result]
      exact course

theorem Proceeds.ite {condition : Prop} [Decidable condition] {yes no : Production α}
    (left : yes.Proceeds) (right : no.Proceeds) :
    (if condition then yes else no).Proceeds := by
  split
  · exact left
  · exact right

theorem proceeds_expectAs (kind : Kind) (expected : String) : (expectAs kind expected).Proceeds :=
  proceeds_currentKind.bind fun _ => .ite proceeds_take (proceeds_failUnexpected expected)

theorem proceeds_expect (kind : Kind) : (expect kind).Proceeds := proceeds_expectAs kind kind.text

theorem proceeds_passIf (kind : Kind) : (passIf kind).Proceeds :=
  proceeds_currentKind.bind fun _ =>
    .ite (proceeds_take.bind fun _ => proceeds_pure _) (proceeds_pure _)

theorem Proceeds.after? {production : Production α} (proceeds : production.Proceeds)
    (kind : Kind) : (after? kind production).Proceeds :=
  proceeds_currentKind.bind fun _ =>
    .ite (proceeds_take.bind fun _ => proceeds.bind fun _ => proceeds_pure _) (proceeds_pure _)

theorem Proceeds.iterateWhile {round : α → Production α} (proceeds : ∀ value, (round value).Proceeds)
    (continues : State → Bool) (value : α) : (iterateWhile continues round value).Proceeds := by
  have within : ∀ (bound : List Lexed) (value : α),
      (iterateWithin continues round bound value).Proceeds := by
    intro bound
    induction bound with
    | nil => exact fun value => proceeds_pure value
    | cons _ bound inductionHypothesis =>
        exact fun value => proceeds_get.bind fun _ =>
          .ite ((proceeds value).bind inductionHypothesis) (proceeds_pure value)
  exact proceeds_get.bind fun state => within (state.ending :: state.upcoming) value

theorem Proceeds.manyWhile {item : Production α} (proceeds : item.Proceeds)
    (continues : State → Bool) : (manyWhile continues item).Proceeds := by
  have within : ∀ bound : List Lexed, (manyWithin continues item bound).Proceeds := by
    intro bound
    induction bound with
    | nil => exact proceeds_pure []
    | cons _ bound inductionHypothesis =>
        exact proceeds_get.bind fun _ =>
          .ite (proceeds.bind fun _ => inductionHypothesis.bind fun _ => proceeds_pure _)
            (proceeds_pure [])
  exact proceeds_get.bind fun state => within (state.ending :: state.upcoming)

theorem proceeds_endItem (listing : Listing) : (endItem listing).Proceeds :=
  proceeds_get.bind fun _ =>
    .ite (proceeds_take.bind fun _ => proceeds_pure _)
      (.ite (proceeds_pure _) (.ite (proceeds_pure _) (proceeds_failUnexpected listing.expected)))

theorem Proceeds.listOf {item : Production α} (proceeds : item.Proceeds) (listing : Listing) :
    (listOf listing item).Proceeds :=
  (Proceeds.manyWhile
      (proceeds.bind fun _ => (proceeds_endItem listing).bind fun _ => proceeds_pure _) _).bind
    fun _ => (proceeds_expect listing.closing).bind fun _ => proceeds_pure _

theorem Proceeds.deeper {production : Production α} (proceeds : production.Proceeds) :
    (deeper production).Proceeds := by
  intro state
  have course := proceeds { state with nesting := state.nesting + 1 }
  unfold Production.deeper
  cases result : production { state with nesting := state.nesting + 1 } with
  | ok value inside =>
      rw [result] at course
      exact .nested (.refl state) course
  | error diagnostic inside =>
      rw [result] at course
      exact .nested (.refl state) course

end Production

end AgentScript
