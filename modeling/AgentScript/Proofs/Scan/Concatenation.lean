import AgentScript.Proofs.Scan.Moved
import AgentScript.Proofs.Scan.Separator

/-!
Contract: the tokens of two texts with a line break between them.

Owns:
- that a gap at the end of a text goes on over a line break, comments included;
- the tokens of a text that starts further down;
- the tokens of a text, a line break and another text as those of the one and then those of the
  other, moved down.
-/

set_option autoImplicit false

namespace AgentScript

/-! ## Scans before a line break -/

namespace Cursor

section

variable {rest : List Char}

/-- A gap at the end of a text goes on over a line break. -/
theorem skipGapFrom_append_of_end {inComment : Bool} {position : Position} {text : List Char}
    (ended : (skipGapFrom inComment position text).rest = []) :
    skipGapFrom inComment position (text ++ '\n' :: rest) =
      skipGapFrom false ((position.afterText text).after '\n') rest := by
  induction text generalizing inComment position with
  | nil =>
      rw [List.nil_append, skipGapFrom, if_neg (by simp), if_pos (by decide)]
      rfl
  | cons char text inductionHypothesis =>
      rw [skipGapFrom_cons] at ended
      rw [List.cons_append, Position.afterText_cons, skipGapFrom_cons]
      split_ifs at ended ⊢ with inside blank comment
      · exact inductionHypothesis ended
      · exact inductionHypothesis ended
      · exact inductionHypothesis ended

/-- The tokens of a text before a line break, and then those of the text after it. -/
theorem scan_followedBy_feed {cursor : Cursor}
    (complete : ∀ lexed ∈ cursor.scan.tokens, lexed.fault? = none) :
    (cursor.followedBy ('\n' :: rest)).scan =
      let after := scan ⟨(cursor.position.afterText cursor.rest).after '\n', rest⟩
      { tokens := cursor.scan.tokens ++ after.tokens, ending := after.ending } := by
  have onlyGap := (next_kind_eq_endOfInput_iff _).1 cursor.afterTokens_next
  have onward : (cursor.afterTokens.followedBy ('\n' :: rest)).scan =
      scan ⟨(cursor.position.afterText cursor.rest).after '\n', rest⟩ := by
    rw [← cursor.afterTokens_afterText]
    exact scan_congr (skipGapFrom_append_of_end onlyGap)
  rw [scan_followedBy severs_feed rest complete, onward]

end

end Cursor

/-! ## Texts that start further down -/

/-- The position so many lines further down. -/
def Position.down (lines : Nat) (position : Position) : Position :=
  ⟨position.line + lines, position.column⟩

/-- The token so many lines further down. -/
def Lexed.down (lines : Nat) (lexed : Lexed) : Lexed where
  token := lexed.token.moved (Position.down lines)
  endLine := lexed.endLine + lines
  fault? := lexed.fault?.map (Diagnostic.moved (Position.down lines))

section

variable (lines : Nat)

theorem Position.down_injective : Function.Injective (Position.down lines) := by
  rintro ⟨line, column⟩ ⟨otherLine, otherColumn⟩ same
  simp only [down, Position.mk.injEq, Nat.add_right_cancel_iff] at same
  rw [same.1, same.2]

theorem Position.shifts_down : Shifts lines (down lines) where
  line _ := rfl
  after := by
    intro position char _
    unfold after down
    split
    · simp only [Nat.add_right_comm]
    · rfl

end

/-! ## Two texts -/

/-- The number of lines that a text takes before a line break. -/
def linesOf (source : String) : Nat := source.toList.count '\n' + 1

/-- The tokens of two texts with a line break between them, if those of the first are complete. -/
theorem Cursor.scan_concatenation {first : String} (second : String)
    (complete : ∀ lexed ∈ (ofSource first).scan.tokens, lexed.fault? = none) :
    (ofSource (first ++ "\n" ++ second)).scan =
      { tokens := (ofSource first).scan.tokens ++
          (ofSource second).scan.tokens.map (Lexed.down (linesOf first))
        ending := (ofSource second).scan.ending.down (linesOf first) } := by
  have whole : ofSource (first ++ "\n" ++ second) =
      (ofSource first).followedBy ('\n' :: second.toList) := by
    simp [ofSource, followedBy]
  have place : ((ofSource first).position.afterText (ofSource first).rest).after '\n' =
      Position.start.down (linesOf first) := by
    change (Position.start.afterText first.toList).after '\n' = _
    rw [start_afterText, placeAfter, Position.after, if_pos rfl]
    simp only [Position.down, Position.start, linesOf, Nat.add_assoc]
  have after : scan ⟨Position.start.down (linesOf first), second.toList⟩ =
      { tokens := (ofSource second).scan.tokens.map (Lexed.down (linesOf first))
        ending := (ofSource second).scan.ending.down (linesOf first) } :=
    (Position.shifts_down (linesOf first)).scan (ofSource second) Nat.zero_lt_one
  rw [whole, scan_followedBy_feed complete, place, after]

/-- The next token does not start on an earlier line than the text. -/
theorem Cursor.line_le_next (cursor : Cursor) :
    cursor.position.line ≤ cursor.next.1.token.position.line := by
  obtain ⟨gap, _, _, place⟩ := cursor.skipGap_split
  have start : cursor.next.1.token.position = cursor.skipGap.position := by
    cases ahead : cursor.skipGap.rest with
    | nil => rw [next_of_end ahead]
    | cons first more => rw [next_of_cons ahead]
  rw [start, place]
  exact Position.line_le_afterText _ gap

/-- No token of a text ends on a later line than the text. -/
theorem Cursor.scan_endLine_le (cursor : Cursor) :
    ∀ lexed ∈ cursor.scan.tokens,
      lexed.endLine ≤ (cursor.position.afterText cursor.rest).line := by
  induction cursor using scan_induction with
  | ending cursor ended => simp [scan_of_end ended]
  | token cursor token inductionHypothesis =>
      obtain ⟨gap, slice, split, _, _, _, place, _⟩ := next_split token
      have finish : cursor.position.afterText cursor.rest =
          cursor.next.2.position.afterText cursor.next.2.rest := by
        rw [place, ← Position.afterText_append, ← split]
      rw [scan_of_token token, finish]
      intro lexed member
      rcases List.mem_cons.1 member with rfl | later
      · rw [next_endLine token]
        exact Position.line_le_afterText _ _
      · exact inductionHypothesis lexed later

/-- No token of a script ends on a later line than the last one of the script. -/
theorem Cursor.endLine_le_linesOf {source : String} :
    ∀ lexed ∈ (ofSource source).scan.tokens, lexed.endLine ≤ linesOf source := by
  have last : ((ofSource source).position.afterText (ofSource source).rest).line =
      linesOf source := by
    change (Position.start.afterText source.toList).line = _
    rw [start_afterText, placeAfter, linesOf, Nat.add_comm]
  exact last ▸ (ofSource source).scan_endLine_le

end AgentScript
