import AgentScript.Proofs.Scan.Partition
import Mathlib.Data.List.TakeWhile

/-!
Contract: every token that a scan gives is well spelled.

Owns: numbers that are read whole, and the agreement of each lexeme's kind with its value.
-/

set_option autoImplicit false

namespace AgentScript

theorem takeWhile_isDigit_append_fractionText (whole text : List Char)
    (digits : ∀ char ∈ whole, isDigit char = true) :
    (whole ++ fractionText text).takeWhile isDigit = whole := by
  rw [List.takeWhile_append_of_pos digits]
  unfold fractionText
  split
  · split
    · simp
    · simp [isDigit]
  · simp

theorem fractionText_fractionText (text : List Char) :
    fractionText (fractionText text) = fractionText text := by
  conv => lhs; arg 1; unfold fractionText
  conv => rhs; unfold fractionText
  split
  · next rest =>
      split
      · rfl
      · next nonempty =>
          simp only [fractionText, List.takeWhile_idem]
  · rfl

/-- Reading a number again reads it whole. -/
theorem numberText_numberText (text : List Char) : numberText (numberText text) = numberText text := by
  have digits : ∀ char ∈ text.takeWhile isDigit, isDigit char = true :=
    fun char member => List.mem_takeWhile_imp member
  simp only [numberText, takeWhile_isDigit_append_fractionText _ _ digits, List.drop_left,
    fractionText_fractionText]

namespace Lexeme

theorem wordKind_allows {first : Char} {rest : List Char} (starts : startsWord first = true) :
    (wordKind (wordText first rest)).Allows (String.ofList (wordText first rest)) := by
  unfold wordKind
  split
  · next keyword found => exact congrArg some (Keyword.word_of_ofWord? found)
  · next noKeyword =>
      have continues : (rest.takeWhile continuesWord).all continuesWord = true :=
        List.all_takeWhile
      simp only [Kind.Allows, isPlainName, String.toList_ofList, wordText, starts, continues,
        Bool.true_and, Option.isNone_iff_eq_none]
      exact noKeyword

theorem plain_allows {kind : Kind} {text : List Char} (allows : kind.Allows (String.ofList text)) :
    (plain kind text).kind.Allows (String.ofList (plain kind text).value) :=
  allows

theorem allows_of_fixedText? {kind : Kind} {text : String} (only : kind.fixedText? = some text) :
    kind.Allows text := by
  cases kind <;> simp_all [Kind.Allows, Kind.fixedText?]

/-- The value of a lexeme is a text that its kind allows. -/
theorem read_allows (first : Char) (rest : List Char) :
    (read first rest).kind.Allows (String.ofList (read first rest).value) := by
  unfold read
  split
  · next kind double =>
      obtain ⟨second, ahead, found⟩ := Option.bind_eq_some_iff.1 double
      obtain ⟨more, rfl⟩ := List.head?_eq_some_iff.1 ahead
      exact allows_of_fixedText? (fixedText?_of_doubleOperator? found)
  · split
    · next kind single => exact allows_of_fixedText? (fixedText?_of_singleOperator? single)
    · split_ifs with quote backquote digit word
      · unfold readString
        split <;> trivial
      · trivial
      · refine plain_allows ⟨?_, ?_⟩
        · obtain ⟨more, text, _⟩ := numberText_cons digit rest
          rw [String.toList_ofList, text]
          exact ⟨first, rfl, digit⟩
        · rw [String.toList_ofList]
          exact numberText_numberText _
      · exact plain_allows (wordKind_allows word)
      · trivial

end Lexeme

theorem Cursor.next_wellSpelled (cursor : Cursor) : cursor.next.1.token.WellSpelled := by
  cases ahead : cursor.skipGap.rest with
  | nil =>
      rw [next_of_end ahead]
      trivial
  | cons first rest =>
      rw [next_of_cons ahead]
      exact Lexeme.read_allows first rest

theorem Cursor.scan_wellSpelled (cursor : Cursor) :
    ∀ lexed ∈ cursor.scan.tokens, lexed.token.WellSpelled := by
  induction cursor using scan_induction with
  | ending cursor ended => simp [scan_of_end ended]
  | token cursor token inductionHypothesis =>
      rw [scan_of_token token]
      intro lexed member
      rcases List.mem_cons.1 member with rfl | inRest
      · exact cursor.next_wellSpelled
      · exact inductionHypothesis lexed inRest

/-- Every token of a script is well spelled. -/
theorem tokenize_wellSpelled (source : String) :
    ∀ token ∈ (tokenize source).1, token.WellSpelled := by
  intro token member
  obtain ⟨lexed, inScan, rfl⟩ := List.mem_map.1 member
  rcases List.mem_append.1 inScan with inTokens | isEnding
  · exact (Cursor.ofSource source).scan_wellSpelled lexed inTokens
  · obtain rfl := List.mem_singleton.1 isEnding
    rw [Token.WellSpelled, (Cursor.ofSource source).scan_ending.1]
    trivial

end AgentScript
