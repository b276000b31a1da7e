import AgentScript.Proofs.Diagnostic.Moved
import AgentScript.Proofs.Scan.Partition
import AgentScript.Proofs.Tree.MapTokens

/-!
Contract: the tokens of a text that starts at another place.

Owns:
- moves of positions that go along with the text;
- the tokens of a text at another place as images of those at its own;
- the move of a text to a place in the middle of a line.
-/

set_option autoImplicit false

namespace AgentScript

theorem Position.line_le_after (position : Position) (char : Char) :
    position.line ≤ (position.after char).line := by
  unfold after
  split
  · exact Nat.le_succ _
  · exact Nat.le_refl _

theorem Position.line_le_afterText (position : Position) (text : List Char) :
    position.line ≤ (position.afterText text).line := by
  induction text generalizing position with
  | nil => exact Nat.le_refl _
  | cons char text inductionHypothesis =>
      exact Nat.le_trans (position.line_le_after char) (inductionHypothesis (position.after char))

/-- A move by so many lines that goes along with the text, from the first line on. -/
structure Position.Shifts (lines : Nat) (move : Position → Position) : Prop where
  line : ∀ position, (move position).line = position.line + lines
  after : ∀ position char, 0 < position.line →
    (move position).after char = move (position.after char)

/-- The token moved with its text, by so many lines. -/
def Lexed.shifted (lines : Nat) (move : Position → Position) (lexed : Lexed) : Lexed where
  token := lexed.token.moved move
  endLine := lexed.endLine + lines
  fault? := lexed.fault?.map (Diagnostic.moved move)

namespace Position.Shifts

variable {lines : Nat} {move : Position → Position} (shifts : Shifts lines move)
include shifts

theorem afterText {position : Position} (positive : 0 < position.line) (text : List Char) :
    (move position).afterText text = move (position.afterText text) := by
  induction text generalizing position with
  | nil => rfl
  | cons char text inductionHypothesis =>
      rw [afterText_cons, afterText_cons, shifts.after position char positive]
      exact inductionHypothesis (Nat.lt_of_lt_of_le positive (position.line_le_after char))

theorem skipGapFrom (inComment : Bool) {position : Position} (positive : 0 < position.line)
    (text : List Char) :
    Cursor.skipGapFrom inComment (move position) text =
      ⟨move (Cursor.skipGapFrom inComment position text).position,
        (Cursor.skipGapFrom inComment position text).rest⟩ := by
  induction text generalizing inComment position with
  | nil => rfl
  | cons char text inductionHypothesis =>
      have positiveAfter := Nat.lt_of_lt_of_le positive (position.line_le_after char)
      rw [Cursor.skipGapFrom, Cursor.skipGapFrom, shifts.after position char positive]
      split_ifs
      · exact inductionHypothesis true positiveAfter
      · exact inductionHypothesis false positiveAfter
      · exact inductionHypothesis true positiveAfter
      · rfl

theorem next {cursor : Cursor} (positive : 0 < cursor.position.line) :
    (Cursor.next ⟨move cursor.position, cursor.rest⟩) =
      (cursor.next.1.shifted lines move, ⟨move cursor.next.2.position, cursor.next.2.rest⟩) := by
  have skipped : Cursor.skipGap ⟨move cursor.position, cursor.rest⟩ =
      ⟨move cursor.skipGap.position, cursor.skipGap.rest⟩ :=
    shifts.skipGapFrom false positive cursor.rest
  cases ahead : cursor.skipGap.rest with
  | nil =>
      have aheadMoved :
          (Cursor.skipGap ⟨move cursor.position, cursor.rest⟩).rest = [] := by rw [skipped, ahead]
      rw [Cursor.next_of_end ahead, Cursor.next_of_end aheadMoved, skipped, shifts.line]
      rfl
  | cons first more =>
      have aheadMoved : (Cursor.skipGap ⟨move cursor.position, cursor.rest⟩).rest =
          first :: more := by rw [skipped, ahead]
      obtain ⟨gap, _, _, place⟩ := cursor.skipGap_split
      have positiveStart : 0 < cursor.skipGap.position.line :=
        place ▸ Nat.lt_of_lt_of_le positive (Position.line_le_afterText _ gap)
      rw [Cursor.next_of_cons ahead, Cursor.next_of_cons aheadMoved, skipped]
      simp only [shifts.afterText positiveStart, shifts.line]
      cases (Lexeme.read first more).unterminated? <;> rfl

/-- The tokens of a text that is moved. -/
theorem scan (cursor : Cursor) (positive : 0 < cursor.position.line) :
    Cursor.scan ⟨move cursor.position, cursor.rest⟩ =
      { tokens := cursor.scan.tokens.map (Lexed.shifted lines move)
        ending := cursor.scan.ending.shifted lines move } := by
  induction cursor using Cursor.scan_induction with
  | ending cursor ended =>
      have endedMoved :
          (Cursor.next ⟨move cursor.position, cursor.rest⟩).1.token.kind = .endOfInput := by
        rw [shifts.next positive]
        exact ended
      rw [Cursor.scan_of_end ended, Cursor.scan_of_end endedMoved, shifts.next positive]
      rfl
  | token cursor token inductionHypothesis =>
      have tokenMoved :
          (Cursor.next ⟨move cursor.position, cursor.rest⟩).1.token.kind ≠ .endOfInput := by
        rw [shifts.next positive]
        exact token
      obtain ⟨gap, slice, _, _, _, _, place, _⟩ := Cursor.next_split token
      have positiveNext : 0 < cursor.next.2.position.line :=
        place ▸ Nat.lt_of_lt_of_le positive (Position.line_le_afterText _ (gap ++ slice))
      rw [Cursor.scan_of_token token, Cursor.scan_of_token tokenMoved, shifts.next positive,
        inductionHypothesis positiveNext]
      rfl

end Position.Shifts

/-! ## Texts that start in the middle of a line -/

/-- The position of a text that starts at the given place, instead of at the start. -/
def Position.startingAt (place position : Position) : Position where
  line := position.line + (place.line - 1)
  column := if position.line = 1 then position.column + (place.column - 1) else position.column

theorem Position.shifts_startingAt (place : Position) :
    Shifts (place.line - 1) (startingAt place) where
  line _ := rfl
  after := by
    rintro ⟨line, column⟩ char positive
    by_cases feed : char = '\n'
    · have later : line + 1 ≠ 1 := Nat.ne_of_gt (Nat.succ_lt_succ positive)
      simp only [after, startingAt, feed, ↓reduceIte, later, Nat.add_right_comm]
    · by_cases firstLine : line = 1 <;>
        simp only [after, startingAt, feed, firstLine, ↓reduceIte, Nat.add_right_comm]

theorem Position.startingAt_start (text : List Char) :
    startingAt (placeAfter text) start = placeAfter text := by
  simp only [startingAt, start, placeAfter, ↓reduceIte]
  congr 1 <;> omega

/-- The first token of a script that starts after another text. -/
theorem Cursor.next_placeAfter (before : List Char) (source : String) :
    (next ⟨placeAfter before, source.toList⟩).1 =
      (ofSource source).next.1.shifted ((placeAfter before).line - 1)
        (Position.startingAt (placeAfter before)) := by
  have moved := (Position.shifts_startingAt (placeAfter before)).next
    (show 0 < (ofSource source).position.line from Nat.zero_lt_one)
  have place : Position.startingAt (placeAfter before) (ofSource source).position =
      placeAfter before := Position.startingAt_start before
  rw [place] at moved
  exact congrArg Prod.fst moved

/-- The tokens of a script that starts after another text. -/
theorem Cursor.scan_placeAfter (before : List Char) (source : String) :
    scan ⟨placeAfter before, source.toList⟩ =
      { tokens := (ofSource source).scan.tokens.map
          (Lexed.shifted ((placeAfter before).line - 1) (Position.startingAt (placeAfter before)))
        ending := (ofSource source).scan.ending.shifted ((placeAfter before).line - 1)
          (Position.startingAt (placeAfter before)) } := by
  have moved := (Position.shifts_startingAt (placeAfter before)).scan (ofSource source)
    Nat.zero_lt_one
  have place : Position.startingAt (placeAfter before) (ofSource source).position =
      placeAfter before := Position.startingAt_start before
  rw [place] at moved
  exact moved

end AgentScript
