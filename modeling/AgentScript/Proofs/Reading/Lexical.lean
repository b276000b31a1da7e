import AgentScript.Command
import AgentScript.Proofs.Reading.Caret
import AgentScript.Proofs.Reading.Rounds
import AgentScript.Proofs.Scan.Unterminated

/-!
Contract: the faults in the text of tokens, in the listing of tokens and in the reading of a script.

Owns:
- that every fault of a token is recorded once the token is in view, and that no text is recorded
  twice;
- that a script is read with the faults of its tokens, no more of them and no fewer;
- the exit status of the command, which depends on whether there are diagnostics and whether all of
  their excerpts can be drawn.
-/

set_option autoImplicit false

namespace AgentScript

/-! ## What is recorded while a script is read -/

/-- The fault of every token that is passed or among the two ahead is recorded. -/
def State.HoldsFaults (tokens : List Lexed) (state : State) : Prop :=
  ∃ passed, tokens = passed ++ state.upcoming ∧
    ∀ lexed ∈ passed ++ state.upcoming.take 2, ∀ diagnostic ∈ lexed.fault?,
      state.sink.holds diagnostic = true

theorem State.HoldsFaults.advance {tokens : List Lexed} {state : State}
    (held : state.HoldsFaults tokens) : state.advance.HoldsFaults tokens := by
  obtain ⟨passed, split, held⟩ := held
  cases ahead : state.upcoming with
  | nil =>
      rw [State.advance_of_nil ahead]
      exact ⟨passed, split, held⟩
  | cons first rest =>
      rw [ahead] at split held
      have grows := State.Reaches.advance_sink_extends state
      have upcoming : state.advance.upcoming = rest := by
        rw [State.Reaches.advance_upcoming, ahead, List.tail_cons]
      refine ⟨passed ++ [first], by simp [split, upcoming], fun lexed member diagnostic fault => ?_⟩
      rw [upcoming, List.take_add_one] at member
      -- of the tokens in view, only the second one has come into view with this step
      have seen : lexed ∈ passed ++ (first :: rest).take 2 ∨ lexed ∈ rest[1]? := by
        simp only [List.take_succ_cons, List.mem_append, List.mem_cons,
          Option.mem_toList] at member ⊢
        tauto
      rcases seen with before | second
      · exact Sink.holds_mono grows (held lexed before diagnostic fault)
      · have recorded : diagnostic ∈ rest[1]?.bind Lexed.fault? :=
          Option.mem_bind_iff.2 ⟨lexed, second, fault⟩
        unfold State.advance
        rw [ahead]
        exact Sink.holds_pushOption _ recorded

/-- Every fault of a token is recorded when the token comes into view, and is kept. -/
def Invariant.holdsFaults (tokens : List Lexed) : Invariant where
  Holds := State.HoldsFaults tokens
  Allowed _ _ := True
  advance held := held.advance
  report _ := fun ⟨passed, split, held⟩ => ⟨passed, split, fun lexed member diagnostic fault =>
    Sink.holds_mono (Sink.prefix_push _ _) (held lexed member diagnostic fault)⟩
  closeTo _ held := held
  deeper _ held := held
  allowed_deeper _ allowed := allowed
  about _ _ _ _ _ _ := trivial

/-- No text is recorded twice. -/
def Invariant.uniqueTexts : Invariant where
  Holds state := state.sink.texts.Nodup
  Allowed _ _ := True
  advance {state} unique := by
    unfold State.advance
    split
    · exact unique
    · exact Sink.nodup_texts_pushOption unique _
  report _ unique := Sink.nodup_texts_push unique
  closeTo _ unique := unique
  deeper _ unique := unique
  allowed_deeper _ allowed := allowed
  about _ _ _ _ _ _ := trivial

theorem parse_nodup_texts (source : String) : (parse source).2.texts.Nodup := by
  have none : Sink.empty.texts.Nodup := List.nodup_nil
  have start : Invariant.uniqueTexts.Holds (State.ofSource source) :=
    Sink.nodup_texts_pushAll none _
  exact Production.holds_readProgram _ start

theorem parse_nodup (source : String) : (parse source).2.entries.Nodup :=
  (parse_nodup_texts source).of_map _

/-- The reading of a script records the faults of all of its tokens. -/
theorem parse_holds_fault {source : String} {diagnostic : Diagnostic}
    (fault : diagnostic ∈ (Cursor.ofSource source).scan.faults) :
    (parse source).2.holds diagnostic = true := by
  have start : (Invariant.holdsFaults (Cursor.ofSource source).scan.tokens).Holds
      (State.ofSource source) := by
    refine ⟨[], rfl, fun lexed member diagnostic fault => ?_⟩
    exact Sink.holds_pushAll _ (List.mem_filterMap.2 ⟨lexed, member, fault⟩)
  obtain ⟨passed, split, held⟩ := Production.holds_readProgram _ start
  have upcoming := Production.readProgram_upcoming (State.scanned_ofSource source)
  obtain ⟨lexed, member, isFault⟩ := List.mem_filterMap.1 fault
  rw [upcoming, List.append_nil] at split
  rw [split] at member
  exact held lexed (List.mem_append_left _ member) diagnostic isFault

/-! ## Agreement with the listing of tokens -/

theorem mem_parse_iff_of_isLexical {source : String} {diagnostic : Diagnostic} :
    diagnostic ∈ (parse source).2.entries ∧ diagnostic.fault.isLexical = true ↔
      diagnostic ∈ (Cursor.ofSource source).scan.faults := by
  constructor
  · rintro ⟨member, lexical⟩
    obtain ⟨lexed, inTokens, fault⟩ := exists_lexed_of_isLexical member lexical
    exact List.mem_filterMap.2 ⟨lexed, inTokens, fault⟩
  · intro fault
    obtain ⟨entry, member, same⟩ := Sink.holds_iff.1 (parse_holds_fault fault)
    obtain ⟨lexed, inTokens, isFault⟩ := List.mem_filterMap.1 fault
    obtain ⟨form, rfl⟩ := Cursor.scan_fault? _ lexed inTokens diagnostic isFault
    have about : (Cursor.unterminatedAt lexed.token.position form).AboutOneOf (tokenize source).1 :=
      ⟨lexed.token, List.mem_map_of_mem (List.mem_append_left _ inTokens), rfl, rfl⟩
    obtain rfl := (parse_aboutOneOf source entry member).eq_of_text_eq about same
    exact ⟨member, rfl⟩

/-- The faults in texts that the reading of a script records are those of its tokens. -/
theorem parse_filter_isLexical (source : String) :
    (parse source).2.entries.filter (fun entry => entry.fault.isLexical) =
      (tokenize source).2.entries := by
  have unique := (parse_nodup source).filter fun entry => entry.fault.isLexical
  have same (diagnostic : Diagnostic) :
      diagnostic ∈ (parse source).2.entries.filter (fun entry => entry.fault.isLexical) ↔
        diagnostic ∈ (Cursor.ofSource source).scan.faults := by
    rw [List.mem_filter]
    exact mem_parse_iff_of_isLexical
  rw [tokenize_entries]
  rcases (Cursor.ofSource source).scan_faults with none | ⟨_, _, _, _, one⟩
  · rw [none] at same ⊢
    exact List.perm_nil.1 ((List.perm_ext_iff_of_nodup unique List.nodup_nil).2 same)
  · rw [one] at same ⊢
    exact List.perm_singleton.1 ((List.perm_ext_iff_of_nodup unique (List.nodup_singleton _)).2 same)

/-- The only fault that the tokens of a script can have is that the last of them is not closed. -/
theorem tokenize_entries_cases (source : String) :
    (tokenize source).2.entries = [] ∨ ∃ before last ending form,
      (tokenize source).1 = before ++ [last, ending] ∧ ending.kind = .endOfInput ∧
      (tokenize source).2.entries = [⟨.unterminatedLiteral form last.position, last.position⟩] := by
  rw [tokenize_entries]
  refine (Cursor.ofSource source).scan_faults.imp_right ?_
  rintro ⟨before, last, form, split, one⟩
  refine ⟨before.map Lexed.token, last.token, (Cursor.ofSource source).scan.ending.token,
    form.text, ?_, (Cursor.scan_ending _).1, one⟩
  simp [tokenize, Scan.allTokens, split]

/-- A script whose tokens have a fault is read with a diagnostic. -/
theorem parse_isEmpty_of_tokenize {source : String} (faulty : (tokenize source).2.isEmpty = false) :
    (parse source).2.isEmpty = false := by
  have agreement := parse_filter_isLexical source
  unfold Sink.isEmpty at faulty ⊢
  cases entries : (parse source).2.entries with
  | nil =>
      rw [entries, List.filter_nil] at agreement
      rw [← agreement] at faulty
      cases faulty
  | cons => rfl

/-! ## The exit status -/

namespace Command

theorem excerpts_complete_iff {source name : String} {entries : List Diagnostic} :
    (excerpts source name entries).2 = true ↔
      ∀ entry ∈ entries, entry.caretWidth source ≤ maxFieldWidth := by
  induction entries with
  | nil => simp [excerpts]
  | cons diagnostic rest inductionHypothesis =>
      rw [List.forall_mem_cons, excerpts]
      cases drawn : diagnostic.excerpt? source name with
      | none =>
          have wide := (Diagnostic.excerpt?_eq_none_iff name).1 drawn
          simp [Nat.not_le.2 wide]
      | some excerpt =>
          have fits : diagnostic.caretWidth source ≤ maxFieldWidth := by
            rw [← Nat.not_lt, ← Diagnostic.excerpt?_eq_none_iff name, drawn]
            simp
          simp [fits, inductionHypothesis]

/-- The exit status for a script with the given diagnostics: 0 if there are none, 1 if the excerpts of
all can be drawn, and 101 if not. -/
def exitStatus (source : String) (sink : Sink) : Nat :=
  if sink.isEmpty then 0
  else if ∀ entry ∈ sink.entries, entry.caretWidth source ≤ maxFieldWidth then 1 else 101

theorem outcome_status (sink : Sink) (listing source name : String) :
    (outcome sink listing source name).status = exitStatus source sink := by
  simp only [outcome, report, excerpts_complete_iff, exitStatus]
  split_ifs <;> rfl

section

variable {bytes : ByteArray} {source : String} (readable : String.fromUTF8? bytes = some source)
include readable

theorem run_status (options : Options) :
    (run options (.ok bytes)).status =
      exitStatus source (if options.tokens then (tokenize source).2 else (parse source).2) := by
  simp only [run, readable, runText]
  split
  · exact outcome_status _ _ source _
  · exact outcome_status _ _ source _

/-- The command finds a fault in a script if it finds one in the tokens of the script. It reports the
diagnostics of the script if their excerpts can be drawn. -/
theorem run_program_status_of_tokens (options : Options)
    (faulty : (run { options with tokens := true } (.ok bytes)).status = 1) :
    (run { options with tokens := false } (.ok bytes)).status =
      if ∀ entry ∈ (parse source).2.entries, entry.caretWidth source ≤ maxFieldWidth then 1
      else 101 := by
  rw [run_status readable, if_pos rfl] at faulty
  have found : (tokenize source).2.isEmpty = false := by
    cases empty : (tokenize source).2.isEmpty with
    | false => rfl
    | true => simp [exitStatus, empty] at faulty
  rw [run_status readable, if_neg Bool.false_ne_true, exitStatus, parse_isEmpty_of_tokenize found]
  rfl

end

end Command

/-- The bytes of a text are read as that text. -/
theorem fromUTF8?_toUTF8 (text : String) : String.fromUTF8? text.toUTF8 = some text :=
  dif_pos text.isValidUTF8

/-- The listing of the tokens of a script has at most one diagnostic, of an unterminated literal at
the last token before the end of input. The reading of the script has the same one among its own, and
no other of its kind; so that the command, where it exits with an error on the tokens of a script,
does so on the script, or stops at a diagnostic too far to the right for an excerpt. The lines of a
script on which it stops are not all shorter than the widest field. -/
theorem tokenize_parse_agree (source : String) :
    (tokenize source).2.entries.length ≤ 1 ∧
      (∀ entry ∈ (tokenize source).2.entries, ∃ before last ending form,
        (tokenize source).1 = before ++ [last, ending] ∧ ending.kind = .endOfInput ∧
        entry = ⟨.unterminatedLiteral form last.position, last.position⟩) ∧
      (parse source).2.entries.filter (fun entry => entry.fault.isLexical) =
        (tokenize source).2.entries ∧
      ∀ (options : Command.Options) (bytes : ByteArray), String.fromUTF8? bytes = some source →
        (Command.run { options with tokens := true } (.ok bytes)).status = 1 →
        (Command.run { options with tokens := false } (.ok bytes)).status =
          (if ∀ entry ∈ (parse source).2.entries, entry.caretWidth source ≤ maxFieldWidth then 1
          else 101) ∧
        ((∀ line ∈ splitLines source.toList, line.length < maxFieldWidth) →
          (Command.run { options with tokens := false } (.ok bytes)).status = 1) := by
  refine ⟨?_, fun entry member => ?_, parse_filter_isLexical source,
    fun options bytes readable faulty => ?_⟩
  · rcases tokenize_entries_cases source with none | ⟨_, _, _, _, _, _, one⟩
    · simp [none]
    · simp [one]
  · rcases tokenize_entries_cases source with none | ⟨before, last, ending, form, split, ends, one⟩
    · rw [none] at member
      cases member
    · rw [one] at member
      exact ⟨before, last, ending, form, split, ends, List.mem_singleton.1 member⟩
  · have status := Command.run_program_status_of_tokens readable options faulty
    exact ⟨status, fun short => by rw [status, if_pos (parse_caretWidth_le short)]⟩

/-- A string that nothing closes, after a bracket that nothing closes. -/
theorem tokenize_parse_agree_unclosed :
    (Command.run ⟨"main.as", true, false⟩ (.ok "x = ('a".toUTF8)).status = 1 ∧
      (Command.run ⟨"main.as", false, false⟩ (.ok "x = ('a".toUTF8)).status = 1 ∧
      ((parse "x = ('a").2.entries.filter fun entry => entry.fault.isLexical).length ≤ 1 := by
  have faulty : (Command.run ⟨"main.as", true, false⟩ (.ok "x = ('a".toUTF8)).status = 1 := by
    decide +kernel
  obtain ⟨atMostOne, _, agreement, command⟩ := tokenize_parse_agree "x = ('a"
  obtain ⟨_, reported⟩ := command ⟨"main.as", true, false⟩ _ (fromUTF8?_toUTF8 _) faulty
  exact ⟨faulty, reported (by decide +kernel), agreement ▸ atMostOne⟩

/-- A string that nothing closes, after a line with two statements so far apart that no excerpt can
point at the second one: the command reports the string among the tokens, and stops at the
statement. -/
theorem tokenize_parse_agree_stopped :
    (Command.run ⟨"main.as", true, false⟩
        (.ok (farApart 70000 ['y', '\n', '\x22']).toUTF8)).status = 1 ∧
      (Command.run ⟨"main.as", false, false⟩
        (.ok (farApart 70000 ['y', '\n', '\x22']).toUTF8)).status = 101 := by
  have after : (Cursor.scan ⟨⟨1, 70002⟩, ['y', '\n', '\x22']⟩).tokens =
        [⟨⟨.identifier, "y", ⟨1, 70002⟩⟩, 1, none⟩,
          ⟨⟨.string, "", ⟨2, 1⟩⟩, 2, some ⟨.unterminatedLiteral "string" ⟨2, 1⟩, ⟨2, 1⟩⟩⟩] ∧
      (Cursor.scan ⟨⟨1, 70002⟩, ['y', '\n', '\x22']⟩).ending =
        ⟨⟨.endOfInput, "", ⟨2, 2⟩⟩, 2, none⟩ := by
    decide +kernel
  have scan := scan_farApart 69999 ['y', '\n', '\x22']
  generalize isSource : farApart 70000 ['y', '\n', '\x22'] = source
  simp only [Nat.reduceAdd, after, isSource] at scan
  have readable := fromUTF8?_toUTF8 source
  have faulty : (Command.run ⟨"main.as", true, false⟩ (.ok source.toUTF8)).status = 1 := by
    have entries : (tokenize source).2.entries =
        [⟨.unterminatedLiteral "string" ⟨2, 1⟩, ⟨2, 1⟩⟩] := by
      rw [tokenize_entries, scan]
      rfl
    have fits : Diagnostic.caretWidth ⟨.unterminatedLiteral "string" ⟨2, 1⟩, ⟨2, 1⟩⟩ source ≤
        maxFieldWidth := Diagnostic.caretWidth_le (by decide)
    rw [Command.run_status readable, if_pos rfl]
    simp [Command.exitStatus, Sink.isEmpty, entries, fits]
  refine ⟨faulty, ?_⟩
  have reported : (⟨.sameLineStatement "identifier 'y'", ⟨1, 70002⟩⟩ : Diagnostic) ∈
      (parse source).2.entries := by
    have start : State.ofSource source = State.ofScan _ := congrArg State.ofScan scan
    rw [parse, start]
    decide +kernel
  rw [Command.run_program_status_of_tokens readable ⟨"main.as", true, false⟩ faulty, if_neg]
  intro all
  have fits := all _ reported
  rw [← isSource, Diagnostic.caretWidth_farApart (by decide) _ rfl] at fits
  exact absurd fits (by decide)

end AgentScript
