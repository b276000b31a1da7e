import AgentScript.Proofs.Scan.Concatenation
import Mathlib.Data.List.Nodup

/-!
Contract: the order of the tokens of a script.

Owns:
- the order of places, which more text leads forward in;
- that every token stands before the tokens after it, so that its place tells it apart;
- the lines that a token starts and ends on;
- the fault of a token, which stands where the token does.
-/

set_option autoImplicit false

namespace AgentScript

/-- The order of places in a script. -/
def Position.Before (left right : Position) : Prop :=
  left.line < right.line ∨ (left.line = right.line ∧ left.column < right.column)

namespace Position

theorem Before.trans {first second third : Position} (left : first.Before second)
    (right : second.Before third) : first.Before third := by
  unfold Before at *
  omega

theorem le_rfl {position : Position} : position ≤ position := .inr ⟨rfl, Nat.le_refl _⟩

theorem le_trans {first second third : Position} (left : first ≤ second) (right : second ≤ third) :
    first ≤ third := by
  change _ ∨ _ at left right ⊢
  omega

theorem Before.le {left right : Position} (before : left.Before right) : left ≤ right :=
  before.imp_right fun sameLine => ⟨sameLine.1, Nat.le_of_lt sameLine.2⟩

theorem Before.ne {left right : Position} (before : left.Before right) : left ≠ right := by
  rintro rfl
  unfold Before at before
  omega

theorem before_after (position : Position) (char : Char) :
    position.Before (position.after char) := by
  unfold after
  split
  · exact .inl (Nat.lt_succ_self _)
  · exact .inr ⟨rfl, Nat.lt_succ_self _⟩

theorem eq_or_before_afterText (position : Position) (text : List Char) :
    position = position.afterText text ∨ position.Before (position.afterText text) := by
  induction text generalizing position with
  | nil => exact .inl rfl
  | cons char text inductionHypothesis =>
      rw [afterText_cons]
      rcases inductionHypothesis (position.after char) with same | before
      · rw [← same]
        exact .inr (before_after position char)
      · exact .inr ((before_after position char).trans before)

theorem before_afterText (position : Position) {text : List Char} (nonempty : text ≠ []) :
    position.Before (position.afterText text) := by
  cases text with
  | nil => exact absurd rfl nonempty
  | cons char text =>
      rcases eq_or_before_afterText (position.after char) text with same | before
      · rw [afterText_cons, ← same]
        exact before_after position char
      · exact (before_after position char).trans before

end Position

namespace Cursor

/-- No token of a text stands before the text. -/
theorem eq_or_before_scan (cursor : Cursor) :
    ∀ token ∈ cursor.scan.allTokens,
      cursor.position = token.position ∨ cursor.position.Before token.position := by
  induction cursor using scan_induction with
  | ending cursor ended =>
      obtain ⟨gap, _, _, place⟩ := cursor.skipGap_split
      rw [scan_of_end ended, next_of_end ((next_kind_eq_endOfInput_iff cursor).1 ended), place]
      simpa [Scan.allTokens] using Position.eq_or_before_afterText cursor.position gap
  | token cursor token inductionHypothesis =>
      obtain ⟨gap, slice, _, _, nonempty, place, placeNext, _⟩ := next_split token
      have whole : gap ++ slice ≠ [] := by simp [nonempty]
      rw [scan_of_token token]
      intro other member
      rcases List.mem_cons.1 member with rfl | later
      · rw [place]
        exact Position.eq_or_before_afterText _ gap
      · have passed := cursor.position.before_afterText whole
        rw [← placeNext] at passed
        rcases inductionHypothesis other later with same | before
        · exact .inr (same ▸ passed)
        · exact .inr (passed.trans before)

/-- Every token stands before the tokens after it. -/
theorem scan_pairwise (cursor : Cursor) :
    cursor.scan.allTokens.Pairwise fun left right => left.position.Before right.position := by
  induction cursor using scan_induction with
  | ending cursor ended =>
      rw [scan_of_end ended]
      exact List.pairwise_singleton _ _
  | token cursor token inductionHypothesis =>
      obtain ⟨gap, slice, _, _, nonempty, place, placeNext, _⟩ := next_split token
      rw [scan_of_token token]
      refine List.pairwise_cons.2 ⟨fun other member => ?_, inductionHypothesis⟩
      have passed := cursor.next.1.token.position.before_afterText nonempty
      rw [place, ← Position.afterText_append, ← placeNext] at passed
      rcases cursor.next.2.eq_or_before_scan other member with same | before
      · rw [place, ← same]
        exact passed
      · rw [place]
        exact passed.trans before

/-- No token ends on an earlier line than it starts on. -/
theorem scan_line_le_endLine (cursor : Cursor) :
    ∀ lexed ∈ cursor.scan.tokens, lexed.token.position.line ≤ lexed.endLine := by
  induction cursor using scan_induction with
  | ending cursor ended => simp [scan_of_end ended]
  | token cursor token inductionHypothesis =>
      rw [scan_of_token token]
      intro lexed member
      rcases List.mem_cons.1 member with rfl | later
      · obtain ⟨gap, slice, _, _, _, place, placeNext, _⟩ := next_split token
        rw [next_endLine token, placeNext, place, Position.afterText_append]
        exact Position.line_le_afterText _ slice
      · exact inductionHypothesis lexed later

/-- The fault of a token is an unterminated literal that starts where the token does. -/
theorem scan_fault? (cursor : Cursor) :
    ∀ lexed ∈ cursor.scan.tokens, ∀ diagnostic ∈ lexed.fault?,
      ∃ form, diagnostic = unterminatedAt lexed.token.position form := by
  induction cursor using scan_induction with
  | ending cursor ended => simp [scan_of_end ended]
  | token cursor token inductionHypothesis =>
      rw [scan_of_token token]
      intro lexed member
      rcases List.mem_cons.1 member with rfl | later
      · cases ahead : cursor.skipGap.rest with
        | nil => exact absurd ((next_kind_eq_endOfInput_iff cursor).2 ahead) token
        | cons first rest =>
            rw [next_of_cons ahead]
            intro diagnostic found
            obtain ⟨form, _, rfl⟩ := Option.map_eq_some_iff.1 found
            exact ⟨form, rfl⟩
      · exact inductionHypothesis lexed later

end Cursor

/-- No two tokens of a script stand at the same place. -/
theorem nodup_positions (source : String) : ((tokenize source).1.map Token.position).Nodup :=
  List.pairwise_map.2 ((Cursor.ofSource source).scan_pairwise.imp Position.Before.ne)

/-- The place of a token tells it apart from the other tokens of its script. -/
theorem eq_of_position_eq {source : String} {left right : Token}
    (memberLeft : left ∈ (tokenize source).1) (memberRight : right ∈ (tokenize source).1)
    (same : left.position = right.position) : left = right :=
  List.inj_on_of_nodup_map (nodup_positions source) memberLeft memberRight same

end AgentScript
