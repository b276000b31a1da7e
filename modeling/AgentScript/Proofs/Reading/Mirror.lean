import AgentScript.Proofs.Diagnostic.Moved
import AgentScript.Proofs.Reading.Progress.Productions
import AgentScript.Proofs.Tree.MapTokens

/-!
Contract: readings of the same tokens at other positions.

Owns:
- the images of states: the tokens ahead at other positions, with a line break where there is one,
  the same open brackets and nesting, and the diagnostics recorded so far at those positions;
- that whatever is asked about a state has the same answer for its image, and every step leads from
  a state and its image to a state and its image;
- productions that read the image of what they read, or fail with the image of the diagnostic, and
  how such productions are put together.

How the sinks of a state and its image are related is a parameter, as the image may be reached with
diagnostics recorded that the state does not have.
-/

set_option autoImplicit false

namespace AgentScript

variable {move : Position → Position}

/-- A relation between sinks and their images that is kept when a diagnostic is recorded in the one
and its image in the other. -/
structure Recording (move : Position → Position) where
  Related : Sink → Sink → Prop
  push {sink image : Sink} (diagnostic : Diagnostic) :
    Related sink image → Related (sink.push diagnostic) (image.push (diagnostic.moved move))

namespace Recording

theorem pushOption (recording : Recording move) {sink image : Sink} (diagnostic? : Option Diagnostic)
    (related : recording.Related sink image) :
    recording.Related (sink.pushOption diagnostic?)
      (image.pushOption (diagnostic?.map (Diagnostic.moved move))) := by
  cases diagnostic? with
  | none => exact related
  | some diagnostic => exact recording.push diagnostic related

/-- The image holds what the sink holds, and nothing else. No two positions may be moved to the same
one, as two diagnostics would be recorded once otherwise. -/
def exact (injective : Function.Injective move) : Recording move where
  Related sink image := image = sink.moved move
  push diagnostic same := by rw [same, Sink.push_moved injective]

end Recording

/-- A token ahead of a line, and its image ahead of another line. -/
structure Lexed.Mirrored (move : Position → Position) (lexed : Lexed) (line : Nat) (image : Lexed)
    (imageLine : Nat) : Prop where
  token : image.token = lexed.token.moved move
  fault? : image.fault? = lexed.fault?.map (Diagnostic.moved move)
  fresh : imageLine < image.token.position.line ↔ line < lexed.token.position.line

/-- The tokens ahead up to the end of input, and their images one by one. Each is ahead of the line
that the token before it ends on. -/
inductive Parallel (move : Position → Position) (ending imageEnding : Lexed) :
    Nat → Nat → List Lexed → List Lexed → Prop where
  | nil {line imageLine : Nat} :
      ending.Mirrored move line imageEnding imageLine →
      Parallel move ending imageEnding line imageLine [] []
  | cons {line imageLine : Nat} {lexed image : Lexed} {rest imageRest : List Lexed} :
      lexed.Mirrored move line image imageLine →
      Parallel move ending imageEnding lexed.endLine image.endLine rest imageRest →
      Parallel move ending imageEnding line imageLine (lexed :: rest) (image :: imageRest)

namespace Parallel

variable {ending imageEnding : Lexed} {line imageLine : Nat} {tokens images : List Lexed}

theorem head (parallel : Parallel move ending imageEnding line imageLine tokens images) :
    (tokens.headD ending).Mirrored move line (images.headD imageEnding) imageLine := by
  cases parallel with
  | nil mirrored => exact mirrored
  | cons mirrored _ => exact mirrored

theorem second (parallel : Parallel move ending imageEnding line imageLine tokens images) :
    (images.tail.headD imageEnding).token = (tokens.tail.headD ending).token.moved move := by
  cases parallel with
  | nil mirrored => exact mirrored.token
  | cons _ rest => exact rest.head.token

theorem length_eq (parallel : Parallel move ending imageEnding line imageLine tokens images) :
    images.length = tokens.length := by
  induction parallel with
  | nil => rfl
  | cons _ _ inductionHypothesis => rw [List.length_cons, inductionHypothesis, List.length_cons]

theorem fault?_eq (parallel : Parallel move ending imageEnding line imageLine tokens images)
    (index : Nat) : images[index]?.bind Lexed.fault? =
      (tokens[index]?.bind Lexed.fault?).map (Diagnostic.moved move) := by
  induction parallel generalizing index with
  | nil => rfl
  | cons mirrored _ inductionHypothesis =>
      cases index with
      | zero => exact mirrored.fault?
      | succ index => exact inductionHypothesis index

end Parallel

variable {recording : Recording move}

/-- A state and its image. -/
structure State.Mirrored (recording : Recording move) (state image : State) : Prop where
  ahead : Parallel move state.ending image.ending state.lastLine image.lastLine state.upcoming
    image.upcoming
  openBrackets : image.openBrackets = state.openBrackets
  nesting : image.nesting = state.nesting
  sink : recording.Related state.sink image.sink

namespace State.Mirrored

variable {state image : State}

theorem current (mirrored : state.Mirrored recording image) :
    image.current = state.current.moved move :=
  mirrored.ahead.head.token

theorem kind (mirrored : state.Mirrored recording image) : image.kind = state.kind := by
  rw [State.kind, mirrored.current]
  rfl

theorem peek (mirrored : state.Mirrored recording image) : image.peek = state.peek.moved move :=
  mirrored.ahead.second

theorem peek_kind (mirrored : state.Mirrored recording image) :
    image.peek.kind = state.peek.kind := by
  rw [mirrored.peek]
  rfl

theorem onNewLine (mirrored : state.Mirrored recording image) : image.onNewLine = state.onNewLine :=
  decide_eq_decide.2 mirrored.ahead.head.fresh

theorem atStatementEnd (mirrored : state.Mirrored recording image) :
    image.atStatementEnd = state.atStatementEnd := by
  unfold State.atStatementEnd
  rw [mirrored.kind, mirrored.onNewLine]

theorem power (mirrored : state.Mirrored recording image) : image.power = state.power := by
  unfold State.power
  rw [mirrored.kind, mirrored.onNewLine]

theorem depth (mirrored : state.Mirrored recording image) : image.depth = state.depth :=
  congrArg List.length mirrored.openBrackets

theorem describe (mirrored : state.Mirrored recording image) :
    image.current.describe = state.current.describe := by
  rw [mirrored.current]
  rfl

/-- A fault reported at the current token. -/
theorem faultHere (mirrored : state.Mirrored recording image) {fault imageFault : Fault}
    (same : imageFault = fault.moved move) :
    image.faultHere imageFault = (state.faultHere fault).moved move := by
  unfold State.faultHere
  rw [same, mirrored.current]
  rfl

theorem unexpected (mirrored : state.Mirrored recording image) (expected : String) :
    image.unexpected expected = (state.unexpected expected).moved move := by
  unfold State.unexpected
  rw [mirrored.describe]
  exact mirrored.faultHere rfl

theorem report (mirrored : state.Mirrored recording image)
    {diagnostic imageDiagnostic : Diagnostic} (same : imageDiagnostic = diagnostic.moved move) :
    (state.report diagnostic).Mirrored recording (image.report imageDiagnostic) where
  ahead := mirrored.ahead
  openBrackets := mirrored.openBrackets
  nesting := mirrored.nesting
  sink := by
    subst same
    exact recording.push diagnostic mirrored.sink

theorem advance (mirrored : state.Mirrored recording image) :
    state.advance.Mirrored recording image.advance := by
  obtain ⟨upcoming, ending, line, brackets, nesting, sink⟩ := state
  obtain ⟨images, imageEnding, imageLine, imageBrackets, imageNesting, imageSink⟩ := image
  obtain ⟨ahead, sameBrackets, sameNesting, sameSink⟩ := mirrored
  simp only at ahead sameBrackets sameNesting sameSink
  subst sameBrackets sameNesting
  cases ahead with
  | nil last => exact ⟨.nil last, rfl, rfl, sameSink⟩
  | @cons _ _ lexed image rest imageRest first ahead =>
      refine ⟨ahead, ?_, rfl, ?_⟩
      · change image.token.kind.bracketsAfter imageBrackets = _
        rw [first.token]
        rfl
      · change recording.Related (sink.pushOption _)
          (imageSink.pushOption (imageRest[1]?.bind Lexed.fault?))
        rw [ahead.fault?_eq]
        exact recording.pushOption _ sameSink

theorem closeTo (mirrored : state.Mirrored recording image) (depth : Nat) :
    (state.closeTo depth).Mirrored recording (image.closeTo depth) where
  ahead := mirrored.ahead
  openBrackets := by
    change image.openBrackets.drop (image.depth - depth) = _
    rw [mirrored.openBrackets, mirrored.depth]
    rfl
  nesting := mirrored.nesting
  sink := mirrored.sink

theorem deeper (mirrored : state.Mirrored recording image) {nesting imageNesting : Nat}
    (same : imageNesting = nesting) :
    { state with nesting := nesting }.Mirrored recording { image with nesting := imageNesting } :=
  ⟨mirrored.ahead, mirrored.openBrackets, same, mirrored.sink⟩

end State.Mirrored

namespace Production

variable {α β : Type}

/-- A result and its image. -/
inductive MirroredResult (recording : Recording move) (view : α → α) :
    EStateM.Result Diagnostic State α → EStateM.Result Diagnostic State α → Prop where
  | ok {value : α} {after imageAfter : State} :
      after.Mirrored recording imageAfter →
      MirroredResult recording view (.ok value after) (.ok (view value) imageAfter)
  | error {diagnostic : Diagnostic} {failed imageFailed : State} :
      failed.Mirrored recording imageFailed →
      MirroredResult recording view (.error diagnostic failed)
        (.error (diagnostic.moved move) imageFailed)

/-- The one production does with a state what the other does with its image. What is read is seen
through the given view. -/
def Mirrors (recording : Recording move) (production image : Production α) (view : α → α) : Prop :=
  ∀ state imageState : State, state.Mirrored recording imageState →
    MirroredResult recording view (production state) (image imageState)

theorem mirrors_pure {view : α → α} {value image : α} (same : image = view value) :
    (pure value : Production α).Mirrors recording (pure image) view := by
  rintro state imageState mirrored
  rw [same]
  exact .ok mirrored

theorem mirrors_throw {view : α → α} {diagnostic image : Diagnostic}
    (same : image = diagnostic.moved move) :
    (throw diagnostic : Production α).Mirrors recording (throw image) view := by
  rintro state imageState mirrored
  rw [same]
  exact .error mirrored

theorem Mirrors.bind {production image : Production α} {next imageNext : α → Production β}
    {view : α → α} {nextView : β → β} (first : production.Mirrors recording image view)
    (second : ∀ value, (next value).Mirrors recording (imageNext (view value)) nextView) :
    (production >>= next).Mirrors recording (image >>= imageNext) nextView := by
  intro state imageState mirrored
  have result := first state imageState mirrored
  generalize read : production state = outcome at result
  generalize imageRead : image imageState = imageOutcome at result
  cases result with
  | ok after =>
      rw [bind_run_of_ok read, bind_run_of_ok imageRead]
      exact second _ _ _ after
  | error failed =>
      rw [bind_run_of_error read, bind_run_of_error imageRead]
      exact .error failed

theorem Mirrors.ite {condition : Prop} [Decidable condition] {yes no imageYes imageNo : Production α}
    {view : α → α} (left : yes.Mirrors recording imageYes view)
    (right : no.Mirrors recording imageNo view) :
    (if condition then yes else no).Mirrors recording (if condition then imageYes else imageNo)
      view := by
  split
  · exact left
  · exact right

/-- What depends on the state is asked about the state and about its image. -/
theorem mirrors_get_bind {next imageNext : State → Production β} {view : β → β}
    (same : ∀ state image : State, state.Mirrored recording image →
      (next state).Mirrors recording (imageNext image) view) :
    ((get : Production State) >>= next).Mirrors recording (get >>= imageNext) view :=
  fun state image mirrored => same state image mirrored state image mirrored

theorem mirrors_currentKind_bind {next imageNext : Kind → Production β} {view : β → β}
    (same : ∀ kind, (next kind).Mirrors recording (imageNext kind) view) :
    (currentKind >>= next).Mirrors recording (currentKind >>= imageNext) view := by
  intro state image mirrored
  rw [currentKind_bind, currentKind_bind, mirrored.kind]
  exact same state.kind state image mirrored

theorem mirrors_take :
    take.Mirrors recording take (Token.moved move) := by
  intro state image mirrored
  rw [take_run, take_run, mirrored.current]
  exact .ok (mirrored.advance)

theorem mirrors_failHere {view : α → α} {fault image : Fault} (same : image = fault.moved move) :
    (failHere fault : Production α).Mirrors recording (failHere image) view := by
  intro state imageState mirrored
  rw [failHere_run, failHere_run, mirrored.faultHere same]
  exact .error mirrored

theorem mirrors_failUnexpected (view : α → α) (expected : String) :
    (failUnexpected expected : Production α).Mirrors recording (failUnexpected expected) view := by
  intro state imageState mirrored
  rw [failUnexpected_run, failUnexpected_run, mirrored.unexpected]
  exact .error mirrored

theorem mirrors_tooDeep (view : α → α) : (tooDeep : Production α).Mirrors recording tooDeep view :=
  mirrors_failHere rfl

theorem mirrors_expectAs (kind : Kind) (expected : String) :
    (expectAs kind expected).Mirrors recording (expectAs kind expected) (Token.moved move) :=
  mirrors_currentKind_bind fun _ =>
    .ite (mirrors_take) (mirrors_failUnexpected _ expected)

theorem mirrors_expect (kind : Kind) :
    (expect kind).Mirrors recording (expect kind) (Token.moved move) :=
  mirrors_expectAs kind kind.text

theorem mirrors_passIf (kind : Kind) :
    (passIf kind).Mirrors recording (passIf kind) id :=
  mirrors_currentKind_bind fun _ =>
    .ite (mirrors_take.bind fun _ => mirrors_pure rfl) (mirrors_pure rfl)

theorem Mirrors.after? {production image : Production α} {view : α → α}
    (mirrors : production.Mirrors recording image view)
    (kind : Kind) :
    (after? kind production).Mirrors recording (after? kind image) (Option.map view) :=
  mirrors_currentKind_bind fun _ =>
    .ite (mirrors_take.bind fun _ => mirrors.bind fun _ => mirrors_pure rfl)
      (mirrors_pure rfl)

/-- A question about states that has the same answer for images. -/
def SameAnswer (recording : Recording move) (question : State → Bool) : Prop :=
  ∀ state image : State, state.Mirrored recording image → question image = question state

theorem Mirrors.iterateWhile {continues : State → Bool} {round : α → Production α} {view : α → α}
    (mirrors : ∀ value, (round value).Mirrors recording (round (view value)) view)
    (same : SameAnswer recording continues) (value : α) :
    (iterateWhile continues round value).Mirrors recording
      (iterateWhile continues round (view value)) view := by
  have within : ∀ (bound imageBound : List Lexed) (value : α), imageBound.length = bound.length →
      (iterateWithin continues round bound value).Mirrors recording
        (iterateWithin continues round imageBound (view value)) view := by
    intro bound
    induction bound with
    | nil =>
        intro imageBound value sameLength
        obtain rfl := List.length_eq_zero_iff.1 sameLength
        exact mirrors_pure rfl
    | cons _ bound inductionHypothesis =>
        intro imageBound value sameLength
        cases imageBound with
        | nil => cases sameLength
        | cons _ imageBound =>
            refine mirrors_get_bind fun state image mirrored => ?_
            rw [same state image mirrored]
            exact .ite ((mirrors value).bind fun next =>
              inductionHypothesis imageBound next (Nat.succ.inj sameLength)) (mirrors_pure rfl)
  refine mirrors_get_bind fun state image mirrored => within _ _ value ?_
  rw [List.length_cons, mirrored.ahead.length_eq, List.length_cons]

theorem Mirrors.manyWhile {continues : State → Bool} {item image : Production α} {view : α → α}
    (mirrors : item.Mirrors recording image view) (same : SameAnswer recording continues) :
    (manyWhile continues item).Mirrors recording (manyWhile continues image) (List.map view) := by
  have within : ∀ bound imageBound : List Lexed, imageBound.length = bound.length →
      (manyWithin continues item bound).Mirrors recording (manyWithin continues image imageBound)
        (List.map view) := by
    intro bound
    induction bound with
    | nil =>
        intro imageBound sameLength
        obtain rfl := List.length_eq_zero_iff.1 sameLength
        exact mirrors_pure rfl
    | cons _ bound inductionHypothesis =>
        intro imageBound sameLength
        cases imageBound with
        | nil => cases sameLength
        | cons _ imageBound =>
            refine mirrors_get_bind fun state imageState mirrored => ?_
            rw [same state imageState mirrored]
            exact .ite (mirrors.bind fun _ =>
              (inductionHypothesis imageBound (Nat.succ.inj sameLength)).bind fun _ =>
                mirrors_pure rfl) (mirrors_pure rfl)
  refine mirrors_get_bind fun state imageState mirrored => within _ _ ?_
  rw [List.length_cons, mirrored.ahead.length_eq, List.length_cons]

theorem mirrors_endItem (listing : Listing) :
    (endItem listing).Mirrors recording (endItem listing) id := by
  refine mirrors_get_bind fun state image mirrored => ?_
  rw [mirrored.kind, mirrored.onNewLine]
  exact .ite (mirrors_take.bind fun _ => mirrors_pure rfl)
    (.ite (mirrors_pure rfl) (.ite (mirrors_pure rfl) (mirrors_failUnexpected _ listing.expected)))

theorem Mirrors.listItem {item image : Production α} {view : α → α}
    (mirrors : item.Mirrors recording image view)
    (listing : Listing) :
    (listItem listing item).Mirrors recording (listItem listing image) view :=
  mirrors.bind fun _ => (mirrors_endItem listing).bind fun _ => mirrors_pure rfl

theorem Mirrors.listOf {item image : Production α} {view : α → α}
    (mirrors : item.Mirrors recording image view)
    (listing : Listing) :
    (listOf listing item).Mirrors recording (listOf listing image) (List.map view) := by
  have items := (mirrors.listItem listing).manyWhile
    (fun state imageState mirrored => by simp only [mirrored.kind] :
      SameAnswer recording fun state => state.kind ≠ listing.closing)
  rw [listOf_eq, listOf_eq]
  exact items.bind fun _ => (mirrors_expect listing.closing).bind fun _ => mirrors_pure rfl

theorem Mirrors.deeper {production image : Production α} {view : α → α}
    (mirrors : production.Mirrors recording image view) :
    (deeper production).Mirrors recording (deeper image) view := by
  intro state imageState mirrored
  have result := mirrors _ _ (mirrored.deeper (congrArg (· + 1) mirrored.nesting))
  unfold Production.deeper
  generalize production { state with nesting := state.nesting + 1 } = read at result ⊢
  generalize image { imageState with nesting := imageState.nesting + 1 } = imageRead at result ⊢
  cases result with
  | ok after => exact .ok (after.deeper (congrArg (· - 1) after.nesting))
  | error failed => exact .error (failed.deeper (congrArg (· - 1) failed.nesting))

end Production

end AgentScript
