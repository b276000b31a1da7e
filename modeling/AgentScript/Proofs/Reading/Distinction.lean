import AgentScript.Proofs.Diagnostic.Recording
import AgentScript.Proofs.Reading.Diagnosis
import AgentScript.Proofs.Reading.Recovery
import AgentScript.Proofs.Reading.Session

/-!
Contract: no diagnostic of a script is taken for another one because their texts agree.

Owns:
- the states over the tokens of a script, and all diagnostics that are built in such states or by the
  scanner, recorded or not;
- that each of them is about one of the tokens of the script, so that its text tells it apart;
- what a sink makes of any sequence of diagnostics, and of those of one script.
-/

set_option autoImplicit false

namespace AgentScript

/-- A state over the tokens of a script: ahead are all of them from one place on. What else the state
records is left open. -/
structure State.StandsIn (source : String) (state : State) : Prop where
  upcoming : state.upcoming <:+ (Cursor.ofSource source).scan.tokens
  ending : state.ending = (Cursor.ofSource source).scan.ending

/-- The diagnostics that the scanner or a call builds over the tokens of a script, wherever the call
stands and on whatever level. Most of them are never recorded. -/
inductive Builds (source : String) : Diagnostic → Prop where
  | scanned {lexed : Lexed} {diagnostic : Diagnostic} :
      lexed ∈ (Cursor.ofSource source).scan.tokens → diagnostic ∈ lexed.fault? →
      Builds source diagnostic
  | failed {room : Nat} {call : Call} {state after : State} {diagnostic : Diagnostic} :
      state.StandsIn source → call.read (Level.withRoom room) state = .error diagnostic after →
      Builds source diagnostic
  | semicolon {state : State} :
      state.StandsIn source → Builds source (state.faultHere .semicolonSeparator)
  | sameLine {state : State} :
      state.StandsIn source →
      Builds source (state.faultHere (.sameLineStatement state.current.describe))

namespace State.StandsIn

variable {source : String} {state : State}

/-- Without what it has recorded, such a state comes from the scan. -/
theorem comesFrom (stands : state.StandsIn source) :
    { state with sink := Sink.empty }.ComesFrom (Cursor.ofSource source).scan :=
  ⟨fun _ member => stands.upcoming.subset member, stands.ending, fun _ none => nomatch none⟩

theorem current (stands : state.StandsIn source) : state.current ∈ (tokenize source).1 :=
  stands.comesFrom.current

theorem advance (stands : state.StandsIn source) : state.advance.StandsIn source where
  upcoming := by
    rw [Reaches.advance_upcoming]
    exact (List.tail_suffix _).trans stands.upcoming
  ending := (Reaches.advance_ending state).trans stands.ending

theorem aboutOneOf (stands : state.StandsIn source) {fault : Fault}
    (describes : fault.Describes state.current) :
    (state.faultHere fault).AboutOneOf (tokenize source).1 :=
  ⟨state.current, stands.current, rfl, describes⟩

end State.StandsIn

/-- Nothing is recorded over the tokens of a script but what is about one of them. -/
def Invariant.standsIn (source : String) : Invariant where
  Holds := State.StandsIn source
  Allowed _ diagnostic := diagnostic.AboutOneOf (tokenize source).1
  advance stands := stands.advance
  report _ stands := ⟨stands.upcoming, stands.ending⟩
  closeTo _ stands := ⟨stands.upcoming, stands.ending⟩
  deeper _ stands := ⟨stands.upcoming, stands.ending⟩
  allowed_deeper _ allowed := allowed
  about stands _ _ about _ _ := ⟨_, stands.current, about⟩

namespace Production

variable {α : Type} {invariant : Invariant}

theorem Preserves.discard {production : Production α} (preserves : Preserves invariant production) :
    Preserves invariant (discard production : Production PUnit) :=
  preserves.bind_pure _

theorem preserves_operandOf {inner : Level} (preserves : LevelPreserves invariant inner)
    (form : OperandForm) : Preserves invariant (operandOf inner form) := by
  cases form with
  | primary => exact preserves_primary
  | unary => exact preserves_unary preserves
  | grouping => exact preserves_grouping preserves
  | array => exact preserves_arrayLiteral preserves
  | object => exact preserves_objectLiteral preserves

theorem preserves_continuationOf {inner : Level} (preserves : LevelPreserves invariant inner)
    (left : Expr) (power : BindingPower) (form : InfixForm) :
    Preserves invariant (continuationOf inner left power form) := by
  cases form with
  | pipe => exact preserves_take.bind fun _ => (preserves.expression _).bind_pure _
  | binary => exact preserves_take.bind fun _ => (preserves.expression _).bind_pure _
  | call => exact preserves_call preserves left
  | member => exact preserves_member left
  | index => exact preserves_index preserves left

theorem preserves_statements {inner : Level} (preserves : LevelPreserves invariant inner)
    (inBlock : Bool) :
    Preserves invariant (statements inBlock (Production.statement inner)) :=
  fun state holds =>
    holds_statementsWithin (preserves_statement preserves) inBlock state.upcoming holds

section

variable {source : String}

/-- Any wording may be used for what is expected: what was found tells the diagnostics apart. -/
theorem preserves_anyExpected (kind : Kind) (expected : String) :
    Preserves (Invariant.standsIn source) (expectAs kind expected) := by
  intro state stands
  rw [expectAs_run]
  split
  · exact stands.advance
  · exact ⟨stands.aboutOneOf rfl, stands⟩

/-- A declaration or a reserved word may also be read at a token that is not its keyword. -/
theorem preserves_statementOf {inner : Level}
    (preserves : LevelPreserves (Invariant.standsIn source) inner) (form : StatementForm) :
    Preserves (Invariant.standsIn source) (statementOf inner form) := by
  intro state stands
  by_cases isConfig : form = .config
  · subst isConfig
    exact (preserves_take.bind fun _ => (preserves_anyExpected _ _).bind fun _ =>
      (preserves_configBody preserves).bind_pure _) state stands
  · by_cases isReserved : form = .reserved
    · subst isReserved
      exact ⟨stands.aboutOneOf rfl, stands.advance⟩
    · exact keeps_statementOf preserves
        (fun either => (either.elim isConfig isReserved).elim) stands

end

end Production

open Production in
/-- Every call, wherever it stands, fails with a diagnostic about a token of the script only. -/
theorem Call.preserves {source : String} {inner : Level}
    (preserves : LevelPreserves (Invariant.standsIn source) inner) (call : Call) :
    Preserves (Invariant.standsIn source) (call.read inner) := by
  cases call with
  | advance => exact preserves_take.discard
  | expect kind expected => exact (preserves_anyExpected kind expected).discard
  | report diagnostic => exact fun state stands => ⟨stands.upcoming, stands.ending⟩
  | recover start => exact fun state stands => holds_recover start stands
  | checkSeparated inBlock => exact fun state stands => holds_checkSeparated inBlock stands
  | statements inBlock => exact (preserves_statements preserves inBlock).discard
  | program => exact fun state stands => holds_readProgram state stands
  | typeExpr power => exact (preserves_typeExpr power).discard
  | arraySuffix element => exact (preserves_arraySuffix element).discard
  | expression power => exact (preserves.expression power).discard
  | expressionAt power => exact (preserves_expressionAt preserves power).discard
  | expressionList closing => exact (preserves_expressionList preserves closing).discard
  | operand form => exact (preserves_operandOf preserves form).discard
  | continuation form left power =>
      exact (preserves_continuationOf preserves left power form).discard
  | block => exact preserves.block.discard
  | statement => exact (preserves_statement preserves).discard
  | expressionStatement => exact (preserves_expressionStatement preserves).discard
  | assignment => exact (preserves_assignment preserves).discard
  | statementOf form => exact (preserves_statementOf preserves form).discard
  | conditionalAt => exact (preserves_conditionalAt preserves).discard
  | condition => exact (preserves_grouping preserves).discard
  | configBody => exact (preserves_configBody preserves).discard

namespace Builds

variable {source : String} {diagnostic : Diagnostic}

theorem aboutOneOf (builds : Builds source diagnostic) :
    diagnostic.AboutOneOf (tokenize source).1 := by
  cases builds with
  | scanned inScan fault => exact Diagnostic.aboutOneOf_of_fault? inScan fault
  | @failed room call state after _ stands read =>
      have kept := call.preserves (Production.levelPreserves_withRoom room) state stands
      rw [read] at kept
      exact kept.1
  | semicolon stands => exact stands.aboutOneOf trivial
  | sameLine stands => exact stands.aboutOneOf rfl

/-- A diagnostic whose text a script has is one of the script itself. -/
theorem mem_entries (builds : Builds source diagnostic)
    (holds : (parse source).2.holds diagnostic = true) :
    diagnostic ∈ (parse source).2.entries := by
  obtain ⟨entry, member, same⟩ := Sink.holds_iff.1 holds
  obtain rfl := (parse_aboutOneOf source entry member).eq_of_text_eq builds.aboutOneOf same
  exact member

end Builds

/-- A new sink records of any sequence, in its order, exactly what no earlier diagnostic has the text
of, and answers so; its size and its texts are those of its entries, no text stands there twice, and
nothing of the sequence is recorded again. Nothing is lost by that for a script: what is built for it
anywhere is told apart by its text, and is itself recorded if its text is. -/
theorem recording_keeps_distinct :
    (∀ diagnostics : List Diagnostic,
      let (answers, sink) := Sink.empty.recordAll diagnostics
      answers = diagnostics.zipIdx.map (isNews diagnostics) ∧
        sink.entries = (diagnostics.zipIdx.filter (isNews diagnostics)).map Prod.fst ∧
        sink.size = sink.entries.length ∧ (sink.isEmpty = true ↔ sink.entries = []) ∧
        sink.texts = sink.entries.map Diagnostic.text ∧ sink.texts.Nodup ∧
        ∀ diagnostic ∈ diagnostics, sink.record diagnostic = (false, sink)) ∧
      (∀ source left right, Builds source left → Builds source right → left.text = right.text →
        left = right) ∧
      ∀ source diagnostic, Builds source diagnostic → (parse source).2.holds diagnostic = true →
        diagnostic ∈ (parse source).2.entries := by
  refine ⟨fun diagnostics => ?_, fun source left right built alsoBuilt same => ?_,
    fun source diagnostic built => built.mem_entries⟩
  · have told := Sink.recordAll_empty diagnostics
    have unique : Sink.empty.texts.Nodup := List.nodup_nil
    refine ⟨congrArg Prod.fst told, congrArg (fun result => result.2.entries) told, rfl,
      List.isEmpty_iff, rfl, ?_, fun diagnostic member => Sink.record_again member⟩
    rw [Sink.recordAll_snd]
    exact Sink.nodup_texts_pushAll unique diagnostics
  · exact built.aboutOneOf.eq_of_text_eq alsoBuilt.aboutOneOf same

/-- What an expression fails with in front of a closing parenthesis is recorded for that script. -/
theorem recording_keeps_distinct_parenthesis :
    let source := "x = )"
    let built : Diagnostic := ⟨.noPrefixForm "')'", ⟨1, 5⟩⟩
    Builds source built ∧ (parse source).2.holds built = true ∧
      built ∈ (parse source).2.entries := by
  intro source built
  have stands : (State.ofSource source).advance.advance.StandsIn source :=
    State.StandsIn.advance (State.StandsIn.advance ⟨List.suffix_rfl, rfl⟩)
  have fails : (Call.expression .default).read (Level.withRoom 1)
      (State.ofSource source).advance.advance =
        .error built (State.ofSource source).advance.advance :=
    Production.eq_error_of_failure? (by decide +kernel)
  have holds : (parse source).2.holds built = true := by decide +kernel
  exact ⟨.failed stands fails, holds,
    recording_keeps_distinct.2.2 source built (.failed stands fails) holds⟩

end AgentScript
