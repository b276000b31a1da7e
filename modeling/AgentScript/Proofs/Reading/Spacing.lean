import AgentScript.Proofs.Reading.ReadBack
import AgentScript.Proofs.Scan.Printed
import AgentScript.Proofs.Scan.Separator

/-!
Contract: texts in which any blanks may stand between the tokens.

Owns:
- texts that show given tokens wherever they stand in a script;
- that such a text is made from a token and another such text, with blanks in front of the token;
- the first state of reading such a text.

Which blanks stand in front of a token leaves no trace, except for whether they break the line.
-/

set_option autoImplicit false

namespace AgentScript

theorem Position.line_afterText (position : Position) (text : List Char) :
    (position.afterText text).line = position.line + text.count '\n' := by
  induction text generalizing position with
  | nil => rfl
  | cons char text inductionHypothesis =>
      rw [afterText_cons, inductionHypothesis, List.count_cons]
      by_cases feed : char = '\n'
      · simp only [after, feed, ↓reduceIte, beq_self_eq_true]
        omega
      · simp [after, feed]

theorem Position.line_lt_line_afterText (position : Position) (text : List Char) :
    position.line < (position.afterText text).line ↔ '\n' ∈ text := by
  rw [line_afterText, Nat.lt_add_right_iff_pos, List.count_pos_iff]

/-- What stands before a token breaks the line exactly if the gap does. -/
def Gap.Matches (gap : Gap) (blanks : List Char) : Prop :=
  gap ≠ .top → gap.breaks = decide ('\n' ∈ blanks)

theorem Gap.matches_top (blanks : List Char) : Gap.top.Matches blanks := fun noTop => absurd rfl noTop

theorem Gap.matches_text (gap : Gap) : gap.Matches gap.text := by
  intro _
  cases gap <;> simp [breaks, text]

/-- Tokens that are shown have no faults. -/
theorem Shows.fault?_eq_none {line : Nat} {upcoming : List Lexed} {tokens : List Printed}
    (shows : Shows line upcoming tokens) : ∀ lexed ∈ upcoming, lexed.fault? = none := by
  induction shows with
  | nil => simp
  | cons _ _ _ noFault _ inductionHypothesis =>
      exact List.forall_mem_cons.2 ⟨noFault, inductionHypothesis⟩

/-- Where the first token may stand on any line, so may what is before it. -/
theorem Shows.of_top {line : Nat} {upcoming : List Lexed} {tokens : List Printed}
    (shows : Shows line upcoming tokens) (top : ∀ first ∈ tokens.head?, first.gap = .top)
    (other : Nat) : Shows other upcoming tokens := by
  cases shows with
  | nil => exact .nil
  | cons kind value _ noFault rest =>
      exact .cons kind value (fun noTop => absurd (top _ rfl) noTop) noFault rest

/-- A text that shows the given tokens wherever it stands in a script. -/
def ScansAs (text : List Char) (tokens : List Printed) : Prop :=
  ∀ position : Position, Shows position.line (Cursor.scan ⟨position, text⟩).tokens tokens

theorem scansAs_nil : ScansAs [] [] := fun _ => .nil

namespace ScansAs

variable {rest : List Char} {following : List Printed}

/-- A token is put in front of a text, with blanks before it. -/
theorem cons {kind : Kind} {value : String} {written blanks : List Char} {gap : Gap}
    (scans : ScansAs rest following) (spells : Spells kind value rest written)
    (isToken : kind ≠ .endOfInput) (blank : ∀ char ∈ blanks, isBlank char = true)
    (fits : gap.Matches blanks) :
    ScansAs (blanks ++ (written ++ rest)) (⟨gap, kind, value⟩ :: following) := by
  intro position
  have isNext := Cursor.next_spelled spells blank position
  rw [Cursor.scan_of_token (by rwa [isNext]), isNext]
  refine .cons rfl rfl (fun noTop => ?_) rfl (scans _)
  rw [fits noTop, decide_eq_decide]
  exact position.line_lt_line_afterText blanks

/-- Blanks leave no trace in front of a token that may stand on any line. -/
theorem blanks {tokens : List Printed} (scans : ScansAs rest tokens)
    (top : ∀ first ∈ tokens.head?, first.gap = .top) (blanks : List Char)
    (blank : ∀ char ∈ blanks, isBlank char = true) : ScansAs (blanks ++ rest) tokens := by
  intro position
  have same : Cursor.scan ⟨position, blanks ++ rest⟩ =
      Cursor.scan ⟨position.afterText blanks, rest⟩ :=
    Cursor.scan_congr (Cursor.skipGapFrom_blanks blank position rest)
  rw [same]
  exact (scans _).of_top top _

/-- Legible tokens are put in front of a text as they are printed. -/
theorem append {tokens : List Printed} (scans : ScansAs rest following)
    (legible : Legible tokens rest) : ScansAs (printedText tokens ++ rest) (tokens ++ following) := by
  induction tokens with
  | nil => exact scans
  | cons printed tokens inductionHypothesis =>
      obtain ⟨⟨allows, ends⟩, legibleTokens⟩ := legible
      obtain ⟨first, more, readsBack⟩ := exists_readsBack allows ends
      have isToken : printed.kind ≠ .endOfInput := by
        intro isEnd
        rw [isEnd] at ends
        exact ends
      rw [printedText_cons, List.append_assoc, List.append_assoc]
      exact (inductionHypothesis legibleTokens).cons readsBack.spells isToken
        (Cursor.isBlank_of_mem_gap _) printed.gap.matches_text

/-- Reading a text starts with the tokens that it shows ahead. Nothing stands before the first of
them, not even a line. -/
theorem shows {source : String} {tokens : List Printed} (scans : ScansAs source.toList tokens)
    (starts : ∀ first ∈ tokens.head?, first.gap = .top) : (State.ofSource source).Shows tokens := by
  have ahead : Shows 1 (Cursor.ofSource source).scan.tokens tokens := scans .start
  have noFaults : ((Cursor.ofSource source).scan.tokens.take 2).filterMap Lexed.fault? = [] :=
    List.filterMap_eq_nil_iff.2 fun lexed member =>
      ahead.fault?_eq_none lexed (List.mem_of_mem_take member)
  refine ⟨State.scanned_ofSource _, ?_, ?_⟩
  · exact ahead.of_top starts 0
  · change Sink.empty.pushAll (((Cursor.ofSource source).scan.tokens.take 2).filterMap
      Lexed.fault?) = Sink.empty
    rw [noFaults]
    rfl

end ScansAs

end AgentScript
