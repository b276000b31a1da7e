import AgentScript.Proofs.Diagnostic.Recorded
import AgentScript.Proofs.Reading.Invariant.Productions
import AgentScript.Proofs.Scan.Order

/-!
Contract: where the diagnostics of a script come from, and what they are about.

Owns:
- that every diagnostic of a script is the fault of a scanned token or is found at a token;
- that it is about one of the tokens, stands where that token does, and is worded with no words of
  the script but keywords;
- that the texts of such diagnostics tell them apart, so that no diagnostic is taken for another one
  when it is recorded;
- that a diagnostic of the text of a token is one that the scan gives that token.
-/

set_option autoImplicit false

namespace AgentScript

/-- Where a diagnostic comes from when the tokens of a scan are read: it is the fault of one of them,
or it is found at one of them, and then it is about that token and worded with keywords at most. -/
inductive Diagnostic.IsOf (scan : Scan) (diagnostic : Diagnostic) : Prop where
  | scanned {lexed : Lexed} : lexed ∈ scan.tokens → diagnostic ∈ lexed.fault? → IsOf scan diagnostic
  | found {token : Token} :
      token ∈ scan.allTokens → diagnostic.About token → diagnostic.fault.isLexical = false →
      diagnostic.fault.Worded (· ∈ scan.allTokens) → IsOf scan diagnostic

/-! ## Reading -/

/-- What is ahead in a state, and what is recorded there, comes from a scan. -/
structure State.ComesFrom (scan : Scan) (state : State) : Prop where
  upcoming : ∀ lexed ∈ state.upcoming, lexed ∈ scan.tokens
  ending : state.ending = scan.ending
  sink : ∀ entry ∈ state.sink.entries, entry.IsOf scan

namespace State.ComesFrom

variable {scan : Scan} {state : State}

theorem current (comes : state.ComesFrom scan) : state.current ∈ scan.allTokens := by
  refine List.mem_map_of_mem ?_
  cases ahead : state.upcoming with
  | nil => exact List.mem_append_right _ (List.mem_singleton.2 comes.ending)
  | cons lexed rest => exact List.mem_append_left _ (comes.upcoming lexed (by simp [ahead]))

theorem advance (comes : state.ComesFrom scan) : state.advance.ComesFrom scan where
  upcoming lexed member := by
    rw [State.Reaches.advance_upcoming] at member
    exact comes.upcoming lexed (List.mem_of_mem_tail member)
  ending := (State.Reaches.advance_ending state).trans comes.ending
  sink entry member := by
    rw [State.advance_sink] at member
    rcases Sink.mem_pushOption member with recorded | fault
    · exact comes.sink entry recorded
    · obtain ⟨lexed, inView, isFault⟩ := Option.bind_eq_some_iff.1 fault
      exact .scanned (comes.upcoming lexed (List.mem_of_getElem? inView)) isFault

end State.ComesFrom

/-- Nothing is recorded while a script is read but what comes from its scan. -/
def Invariant.comesFrom (scan : Scan) : Invariant where
  Holds := State.ComesFrom scan
  Allowed _ diagnostic := diagnostic.IsOf scan
  advance comes := comes.advance
  report allowed comes :=
    ⟨comes.upcoming, comes.ending, fun entry member =>
      (Sink.mem_push member).elim (comes.sink entry) fun same => same ▸ allowed⟩
  closeTo _ comes := ⟨comes.upcoming, comes.ending, comes.sink⟩
  deeper _ comes := ⟨comes.upcoming, comes.ending, comes.sink⟩
  allowed_deeper _ allowed := allowed
  about comes _ _ about grammatical worded :=
    .found comes.current about grammatical <| worded.mono <| by
      rintro _ ⟨state, comes, rfl⟩
      exact comes.current

theorem State.comesFrom_ofScan (scan : Scan) : (State.ofScan scan).ComesFrom scan where
  upcoming _ member := member
  ending := rfl
  sink entry member := by
    rcases Sink.mem_pushAll member with none | fault
    · cases none
    · obtain ⟨lexed, inView, isFault⟩ := List.mem_filterMap.1 fault
      exact .scanned (List.mem_of_mem_take inView) isFault

/-- Every diagnostic of a script comes from its scan. -/
theorem parse_isOf (source : String) :
    ∀ entry ∈ (parse source).2.entries, entry.IsOf (Cursor.ofSource source).scan := by
  have start : (Invariant.comesFrom (Cursor.ofSource source).scan).Holds (State.ofSource source) :=
    State.comesFrom_ofScan _
  exact (Production.holds_readProgram _ start).sink

/-! ## What diagnostics are about -/

/-- A diagnostic about one of the given tokens. -/
def Diagnostic.AboutOneOf (diagnostic : Diagnostic) (tokens : List Token) : Prop :=
  ∃ token ∈ tokens, diagnostic.About token

/-- The fault of a token is about that token. -/
theorem Diagnostic.aboutOneOf_of_fault? {source : String} {lexed : Lexed} {diagnostic : Diagnostic}
    (inScan : lexed ∈ (Cursor.ofSource source).scan.tokens) (fault : diagnostic ∈ lexed.fault?) :
    diagnostic.AboutOneOf (tokenize source).1 := by
  obtain ⟨form, rfl⟩ := Cursor.scan_fault? _ lexed inScan diagnostic fault
  exact ⟨lexed.token, List.mem_map_of_mem (List.mem_append_left _ inScan), rfl, rfl⟩

/-- Every diagnostic of a script is about one of its tokens and stands where that token does. -/
theorem parse_aboutOneOf (source : String) :
    ∀ entry ∈ (parse source).2.entries, entry.AboutOneOf (tokenize source).1 := by
  intro entry member
  cases parse_isOf source entry member with
  | scanned inScan fault => exact Diagnostic.aboutOneOf_of_fault? inScan fault
  | found inTokens about => exact ⟨_, inTokens, about⟩

/-- Every diagnostic of a script is worded with no words of the script but keywords. -/
theorem parse_worded (source : String) :
    ∀ entry ∈ (parse source).2.entries, entry.fault.Worded (· ∈ (tokenize source).1) := by
  intro entry member
  cases parse_isOf source entry member with
  | @scanned lexed inScan fault =>
      obtain ⟨form, rfl⟩ := Cursor.scan_fault? _ lexed inScan entry fault
      exact ⟨form, rfl⟩
  | found _ _ _ worded => exact worded

/-- A number that is spelled as one has a value, so nothing calls it malformed. -/
theorem not_describes_malformedNumber {token : Token} (spelled : token.WellSpelled)
    (text : String) : ¬ (Fault.malformedNumber text).Describes token := by
  rintro ⟨kind, rfl, noValue⟩
  rw [Token.WellSpelled, kind] at spelled
  obtain ⟨value, found⟩ := Decimal.ofText?_isSome spelled
  rw [found] at noValue
  cases noValue

/-- The texts of diagnostics about tokens of one script tell them apart. -/
theorem Diagnostic.AboutOneOf.eq_of_text_eq {source : String} {left right : Diagnostic}
    (aboutLeft : left.AboutOneOf (tokenize source).1)
    (aboutRight : right.AboutOneOf (tokenize source).1) (same : left.text = right.text) :
    left = right := by
  obtain ⟨token, member, about⟩ := aboutLeft
  obtain ⟨other, otherMember, otherAbout⟩ := aboutRight
  have place : token.position = other.position := by
    rw [← about.place_eq, ← otherAbout.place_eq]
    exact (text_eq_iff.1 same).2
  obtain rfl := eq_of_position_eq member otherMember place
  exact about.eq_of_text_eq otherAbout same

/-- Every fault in a text that a script has is the fault of one of its tokens. -/
theorem exists_lexed_of_isLexical {source : String} {entry : Diagnostic}
    (member : entry ∈ (parse source).2.entries) (lexical : entry.fault.isLexical = true) :
    ∃ lexed ∈ (Cursor.ofSource source).scan.tokens, entry ∈ lexed.fault? := by
  cases parse_isOf source entry member with
  | @scanned lexed inScan fault => exact ⟨lexed, inScan, fault⟩
  | found _ _ grammatical =>
      rw [grammatical] at lexical
      cases lexical

end AgentScript
