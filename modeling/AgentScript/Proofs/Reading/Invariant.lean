import AgentScript.Grammar.Program
import AgentScript.Proofs.Diagnostic.About
import AgentScript.Proofs.Diagnostic.Worded
import AgentScript.Proofs.Reading.Course

/-!
Contract: what holds of every state of a reading if every step keeps it.

Owns:
- how far past the token it is about a diagnostic may be found;
- invariants: a property of states that passing a token, recording a diagnostic, forgetting brackets
  and entering a form keep, and the diagnostics that may be recorded in a state;
- productions that preserve an invariant and fail with such a diagnostic only, and how they are put
  together.

A diagnostic may be recorded if it is about a token that was the current one, no further back than
its fault allows, is no fault in the text of a token, and is worded with no words of the script but
keywords that were read. That is all that productions record.
-/

set_option autoImplicit false

namespace AgentScript

/-- Faults of a statement that show only after the statement is read. -/
def Fault.isBelated : Fault → Bool
  | .tryWithoutHandler | .invalidExport _ => true
  | _ => false

/-- The states in which a fault of the current token of a state may be found: there, after the token,
or, if the fault is belated, wherever the reading has led to. -/
inductive State.Finds (start : State) (fault : Fault) : State → Prop where
  | here : start.Finds fault start
  | passed : start.Finds fault start.advance
  | belated {failed : State} :
      fault.isBelated = true → start.Reaches failed → start.Finds fault failed

/-- A property of the states of a reading, and the diagnostics that are recorded in them. -/
structure Invariant where
  Holds : State → Prop
  Allowed : State → Diagnostic → Prop
  advance {state : State} : Holds state → Holds state.advance
  report {state : State} {diagnostic : Diagnostic} :
    Allowed state diagnostic → Holds state → Holds (state.report diagnostic)
  closeTo {state : State} (depth : Nat) : Holds state → Holds (state.closeTo depth)
  deeper {state : State} (nesting : Nat) : Holds state → Holds { state with nesting := nesting }
  allowed_deeper {state : State} {diagnostic : Diagnostic} (nesting : Nat) :
    Allowed state diagnostic → Allowed { state with nesting := nesting } diagnostic
  about {start failed : State} {diagnostic : Diagnostic} :
    Holds start → Holds failed → start.Finds diagnostic.fault failed →
      diagnostic.About start.current → diagnostic.fault.isLexical = false →
        (diagnostic.fault.Worded fun token => ∃ state, Holds state ∧ state.current = token) →
          Allowed failed diagnostic

/-- A token that is the current one of some state where the invariant holds. -/
def Invariant.Reads (invariant : Invariant) (token : Token) : Prop :=
  ∃ state, invariant.Holds state ∧ state.current = token

namespace Production

variable {α β : Type} {invariant : Invariant}

/-- A result in a state where the invariant holds. -/
def Keeps (invariant : Invariant) : EStateM.Result Diagnostic State α → Prop
  | .ok _ after => invariant.Holds after
  | .error diagnostic failed => invariant.Allowed failed diagnostic ∧ invariant.Holds failed

/-- A production that keeps the invariant wherever it starts. -/
def Preserves (invariant : Invariant) (production : Production α) : Prop :=
  ∀ state : State, invariant.Holds state → Keeps invariant (production state)

theorem preserves_pure (value : α) : Preserves invariant (pure value : Production α) :=
  fun _ holds => holds

theorem Keeps.bind {production : Production α} {next : α → Production β} {state : State}
    (first : Keeps invariant (production state))
    (second : ∀ value after, production state = .ok value after → invariant.Holds after →
      Keeps invariant (next value after)) :
    Keeps invariant ((production >>= next) state) := by
  cases result : production state with
  | ok value after =>
      rw [result] at first
      rw [Production.bind_run_of_ok result]
      exact second value after result first
  | error diagnostic failed =>
      rw [result] at first
      rw [Production.bind_run_of_error result]
      exact first

theorem Preserves.bind {production : Production α} {next : α → Production β}
    (first : Preserves invariant production) (second : ∀ value, Preserves invariant (next value)) :
    Preserves invariant (production >>= next) :=
  fun state holds => (first state holds).bind fun value after _ => second value after

theorem Preserves.bind_pure {production : Production α} (preserves : Preserves invariant production)
    (finish : α → β) : Preserves invariant (production >>= fun value => pure (finish value)) :=
  preserves.bind fun _ => preserves_pure _

theorem Preserves.ite {condition : Prop} [Decidable condition] {yes no : Production α}
    (left : Preserves invariant yes) (right : Preserves invariant no) :
    Preserves invariant (if condition then yes else no) := by
  split
  · exact left
  · exact right

theorem preserves_get_bind {next : State → Production β}
    (onward : ∀ state, Preserves invariant (next state)) :
    Preserves invariant ((get : Production State) >>= next) := by
  intro state holds
  rw [get_bind]
  exact onward state state holds

theorem preserves_currentKind_bind {next : Kind → Production β}
    (onward : ∀ kind, Preserves invariant (next kind)) :
    Preserves invariant (currentKind >>= next) := by
  intro state holds
  rw [currentKind_bind]
  exact onward state.kind state holds

theorem preserves_take : Preserves invariant take := fun _ holds => invariant.advance holds

theorem allowed_here {state : State} {fault : Fault} (holds : invariant.Holds state)
    (describes : fault.Describes state.current) (grammatical : fault.isLexical = false)
    (worded : fault.Worded invariant.Reads) :
    invariant.Allowed state (state.faultHere fault) :=
  invariant.about holds holds .here ⟨rfl, describes⟩ grammatical worded

/-- A failure at the current token, which the fault describes. -/
theorem keeps_error {state : State} {fault : Fault} (holds : invariant.Holds state)
    (describes : fault.Describes state.current) (grammatical : fault.isLexical = false)
    (worded : fault.Worded invariant.Reads) :
    Keeps invariant (.error (state.faultHere fault) state : EStateM.Result Diagnostic State α) :=
  ⟨allowed_here holds describes grammatical worded, holds⟩

/-- A failure at the token just passed, which the fault describes. -/
theorem keeps_error_passed {state : State} {fault : Fault} (holds : invariant.Holds state)
    (describes : fault.Describes state.current) (grammatical : fault.isLexical = false)
    (worded : fault.Worded invariant.Reads) :
    Keeps invariant
      (.error (state.faultHere fault) state.advance : EStateM.Result Diagnostic State α) :=
  ⟨invariant.about holds (invariant.advance holds) .passed ⟨rfl, describes⟩ grammatical worded,
    invariant.advance holds⟩

/-- A failure at a token further back, which the fault describes. -/
theorem keeps_error_belated {start failed : State} {fault : Fault} (held : invariant.Holds start)
    (belated : fault.isBelated = true) (course : start.Reaches failed)
    (describes : fault.Describes start.current) (holds : invariant.Holds failed) :
    Keeps invariant (.error (start.faultHere fault) failed : EStateM.Result Diagnostic State α) := by
  have checked : fault.isLexical = false ∧ fault.Worded invariant.Reads := by
    cases fault with
    | tryWithoutHandler => exact ⟨rfl, trivial⟩
    | invalidExport found => exact ⟨rfl, trivial⟩
    | _ => cases belated
  exact ⟨invariant.about held holds (.belated belated course) ⟨rfl, describes⟩ checked.1 checked.2,
    holds⟩

theorem preserves_failUnexpected {expected : String}
    (wording : IsWording invariant.Reads expected) :
    Preserves invariant (failUnexpected expected : Production α) :=
  fun _ holds => keeps_error holds rfl rfl wording

theorem preserves_tooDeep : Preserves invariant (tooDeep : Production α) :=
  fun _ holds => keeps_error holds rfl rfl trivial

/-- A failure that describes the current token. -/
theorem preserves_failHere {fault : String → Fault}
    (describes : ∀ token : Token, (fault token.describe).Describes token)
    (grammatical : ∀ found, (fault found).isLexical = false)
    (worded : ∀ found, (fault found).Worded invariant.Reads) :
    Preserves invariant (do failHere (fault (← get).current.describe) : Production α) :=
  fun state holds => keeps_error holds (describes state.current) (grammatical _) (worded _)

theorem preserves_expectAs (kind : Kind) {expected : String}
    (wording : IsWording invariant.Reads expected) :
    Preserves invariant (expectAs kind expected) :=
  preserves_currentKind_bind fun _ => .ite preserves_take (preserves_failUnexpected wording)

theorem preserves_expect (kind : Kind) : Preserves invariant (expect kind) :=
  preserves_expectAs kind (.kind kind)

theorem preserves_passIf (kind : Kind) : Preserves invariant (passIf kind) :=
  preserves_currentKind_bind fun _ => .ite (preserves_take.bind_pure _) (preserves_pure _)

theorem Preserves.after? {production : Production α} (preserves : Preserves invariant production)
    (kind : Kind) : Preserves invariant (after? kind production) :=
  preserves_currentKind_bind fun _ =>
    .ite (preserves_take.bind fun _ => preserves.bind_pure _) (preserves_pure _)

theorem preserves_iterateWhile {round : α → Production α}
    (rounds : ∀ value, Preserves invariant (round value)) (continues : State → Bool) (value : α) :
    Preserves invariant (iterateWhile continues round value) := by
  refine preserves_get_bind fun state => ?_
  generalize state.ending :: state.upcoming = bound
  induction bound generalizing value with
  | nil => exact preserves_pure value
  | cons _ bound inductionHypothesis =>
      exact preserves_get_bind fun _ => .ite ((rounds value).bind inductionHypothesis)
        (preserves_pure value)

theorem preserves_manyWhile {item : Production α} (items : Preserves invariant item)
    (continues : State → Bool) : Preserves invariant (manyWhile continues item) := by
  refine preserves_get_bind fun state => ?_
  generalize state.ending :: state.upcoming = bound
  induction bound with
  | nil => exact preserves_pure []
  | cons _ bound inductionHypothesis =>
      exact preserves_get_bind fun _ =>
        .ite (items.bind fun _ => inductionHypothesis.bind_pure _) (preserves_pure [])

theorem preserves_endItem {listing : Listing}
    (wording : IsWording invariant.Reads listing.expected) :
    Preserves invariant (endItem listing) :=
  preserves_get_bind fun _ => .ite (preserves_take.bind_pure _)
    (.ite (preserves_pure _) (.ite (preserves_pure _) (preserves_failUnexpected wording)))

theorem preserves_listOf {item : Production α} (items : Preserves invariant item)
    {listing : Listing} (wording : IsWording invariant.Reads listing.expected) :
    Preserves invariant (listOf listing item) :=
  (preserves_manyWhile (items.bind fun _ => (preserves_endItem wording).bind_pure _) _).bind
    fun _ => (preserves_expect _).bind_pure _

theorem Preserves.deeper {production : Production α} (preserves : Preserves invariant production) :
    Preserves invariant (deeper production) := by
  intro state holds
  have kept := preserves _ (invariant.deeper (state.nesting + 1) holds)
  unfold Production.deeper
  cases result : production { state with nesting := state.nesting + 1 } with
  | ok value after =>
      rw [result] at kept
      exact invariant.deeper _ kept
  | error diagnostic failed =>
      rw [result] at kept
      exact ⟨invariant.allowed_deeper _ kept.1, invariant.deeper _ kept.2⟩

end Production

end AgentScript
