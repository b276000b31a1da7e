import AgentScript.Proofs.Token.FixedText
import AgentScript.Scan.Scanner
import Mathlib.Tactic.Common

/-!
Contract: every token takes text, and the scan of a text is its first token and the scan of what
that leaves.

Owns:
- what each literal takes of the text after its opening quote;
- the bound on a lexeme, its kind, and which lexemes have their own characters as value;
- the recursion equation of a scan, free of the bound that the definition carries.
-/

set_option autoImplicit false

namespace AgentScript

namespace Extent

/-- A literal in single quotes takes its body and, if there is one, the closing quote; a literal
that is not closed takes everything. -/
theorem single_append (quote : Char) (text : List Char) :
    ∃ tail, text = (single quote text).body ++
        ((if (single quote text).closed then [quote] else []) ++ tail) ∧
      ((single quote text).closed = false → tail = []) := by
  fun_induction single quote text with
  | case1 => exact ⟨[], by simp⟩
  | case2 => exact ⟨[], by simp⟩
  | case3 char other => exact ⟨[], by simp⟩
  | case4 next rest => exact ⟨next :: rest, by simp⟩
  | case5 next rest other inductionHypothesis =>
      obtain ⟨tail, split, whole⟩ := inductionHypothesis
      exact ⟨tail, congrArg (fun text => '\\' :: next :: text) split, whole⟩
  | case6 char next rest other plain inductionHypothesis =>
      obtain ⟨tail, split, whole⟩ := inductionHypothesis
      exact ⟨tail, congrArg (fun text => char :: text) split, whole⟩

/-- A literal in three quotes takes its body and, if they are there, the closing quotes; a literal
that is not closed takes everything. -/
theorem triple_append (quote : Char) (text : List Char) :
    ∃ tail, text = (triple quote text).body ++
        ((if (triple quote text).closed then [quote, quote, quote] else []) ++ tail) ∧
      ((triple quote text).closed = false → tail = []) := by
  induction text with
  | nil => exact ⟨[], by simp [triple]⟩
  | cons char rest inductionHypothesis =>
      unfold triple
      split
      · next closes =>
          obtain ⟨tail, split⟩ := List.isPrefixOf_iff_prefix.1 closes
          exact ⟨tail, by simpa using split.symm⟩
      · obtain ⟨tail, split, whole⟩ := inductionHypothesis
        exact ⟨tail, congrArg (fun text => char :: text) split, whole⟩

theorem single_length_le (quote : Char) (text : List Char) :
    (single quote text).body.length + (if (single quote text).closed then 1 else 0)
      ≤ text.length := by
  obtain ⟨tail, split, _⟩ := single_append quote text
  have lengths := congrArg List.length split
  cases closed : (single quote text).closed <;>
    simp only [closed, List.length_append, ↓reduceIte, Bool.false_eq_true, List.length_cons,
      List.length_nil] at lengths ⊢ <;> omega

theorem triple_length_le (quote : Char) (text : List Char) :
    (triple quote text).body.length + (if (triple quote text).closed then 3 else 0)
      ≤ text.length := by
  obtain ⟨tail, split, _⟩ := triple_append quote text
  have lengths := congrArg List.length split
  cases closed : (triple quote text).closed <;>
    simp only [closed, List.length_append, ↓reduceIte, Bool.false_eq_true, List.length_cons,
      List.length_nil] at lengths ⊢ <;> omega

end Extent

theorem fractionText_prefix (text : List Char) : fractionText text <+: text := by
  unfold fractionText
  split
  · next rest =>
      split
      · exact List.nil_prefix
      · next digits _ =>
          exact (List.cons_prefix_cons).2 ⟨rfl, List.takeWhile_prefix _⟩
  · exact List.nil_prefix

theorem numberText_prefix (text : List Char) : numberText text <+: text := by
  have whole : text.takeWhile isDigit ++ text.drop (text.takeWhile isDigit).length = text :=
    List.prefix_iff_eq_append.1 (List.takeWhile_prefix _)
  obtain ⟨tail, split⟩ := fractionText_prefix (text.drop (text.takeWhile isDigit).length)
  exact ⟨tail, by rw [numberText, List.append_assoc, split, whole]⟩

namespace Lexeme

/-- What holds of the lexeme at the start of a text, whatever its kind. -/
structure Takes (lexeme : Lexeme) (first : Char) (rest : List Char) : Prop where
  more_le : lexeme.more ≤ rest.length
  kind_ne : lexeme.kind ≠ .endOfInput
  value_eq : lexeme.kind ≠ .string → lexeme.kind ≠ .template →
    lexeme.value = first :: rest.take lexeme.more

theorem plain_takes {kind : Kind} {first : Char} {more rest : List Char}
    (leading : more <+: rest) (kind_ne : kind ≠ .endOfInput) :
    (plain kind (first :: more)).Takes first rest where
  more_le := leading.length_le
  kind_ne := kind_ne
  value_eq := fun _ _ => congrArg (first :: ·) (List.prefix_iff_eq_take.1 leading)

theorem readString_takes (first : Char) (rest : List Char) :
    (readString first rest).Takes first rest := by
  unfold readString
  split
  · next opens =>
      obtain ⟨tail, rfl⟩ := List.isPrefixOf_iff_prefix.1 opens
      refine ⟨?_, by simp [delimited], by simp [delimited]⟩
      have bound := Extent.triple_length_le first tail
      simp only [delimited, List.cons_append, List.nil_append, List.drop_succ_cons, List.drop_zero,
        List.length_cons] at bound ⊢
      omega
  · refine ⟨?_, by simp [delimited], by simp [delimited]⟩
    have bound := Extent.single_length_le first rest
    simp only [delimited] at bound ⊢
    omega

theorem readTemplate_takes (first : Char) (rest : List Char) :
    (readTemplate rest).Takes first rest := by
  refine ⟨?_, by simp [readTemplate, delimited], by simp [readTemplate, delimited]⟩
  have bound := Extent.single_length_le '\x60' rest
  simp only [readTemplate, delimited] at bound ⊢
  omega

theorem ne_endOfInput_of_fixedText? {kind : Kind} {text : String}
    (only : kind.fixedText? = some text) : kind ≠ .endOfInput := by
  rintro rfl
  cases only

theorem wordKind_ne_endOfInput (word : List Char) : wordKind word ≠ .endOfInput := by
  unfold wordKind
  split <;> simp

theorem numberText_cons {first : Char} (digit : isDigit first = true) (rest : List Char) :
    ∃ more, numberText (first :: rest) = first :: more ∧ more <+: rest := by
  have leading := numberText_prefix (first :: rest)
  unfold numberText at leading ⊢
  rw [List.takeWhile_cons_of_pos digit] at leading ⊢
  exact ⟨_, rfl, (List.cons_prefix_cons.1 leading).2⟩

theorem read_takes (first : Char) (rest : List Char) : (read first rest).Takes first rest := by
  unfold read
  split
  · next kind double =>
      obtain ⟨second, _, found⟩ := Option.bind_eq_some_iff.1 double
      exact plain_takes (List.take_prefix 1 rest)
        (ne_endOfInput_of_fixedText? (fixedText?_of_doubleOperator? found))
  · split
    · next kind single =>
        exact plain_takes List.nil_prefix
          (ne_endOfInput_of_fixedText? (fixedText?_of_singleOperator? single))
    · split_ifs with quote backquote digit word
      · exact readString_takes first rest
      · exact readTemplate_takes first rest
      · obtain ⟨more, text, leading⟩ := numberText_cons digit rest
        rw [text]
        exact plain_takes leading (by simp)
      · exact plain_takes (List.takeWhile_prefix _) (wordKind_ne_endOfInput _)
      · exact plain_takes List.nil_prefix (by simp)

end Lexeme

namespace Cursor

/-- At the end of the text, the next token is the end of input, and nothing moves on. -/
theorem next_of_end {cursor : Cursor} (ended : cursor.skipGap.rest = []) :
    cursor.next = (⟨⟨.endOfInput, "", cursor.skipGap.position⟩, cursor.skipGap.position.line, none⟩,
      cursor.skipGap) := by
  unfold next
  simp only [ended]

/-- Before the end of the text, the next token is the lexeme after the gap. -/
theorem next_of_cons {cursor : Cursor} {first : Char} {rest : List Char}
    (ahead : cursor.skipGap.rest = first :: rest) :
    cursor.next =
      let lexeme := Lexeme.read first rest
      let finish := cursor.skipGap.position.afterText (first :: rest.take lexeme.more)
      (⟨⟨lexeme.kind, String.ofList lexeme.value, cursor.skipGap.position⟩, finish.line,
          lexeme.unterminated?.map (unterminatedAt cursor.skipGap.position)⟩,
        ⟨finish, rest.drop lexeme.more⟩) := by
  unfold next
  simp only [ahead]

/-- The next token is the end of input exactly when only a gap is left. -/
theorem next_kind_eq_endOfInput_iff (cursor : Cursor) :
    cursor.next.1.token.kind = .endOfInput ↔ cursor.skipGap.rest = [] := by
  cases ahead : cursor.skipGap.rest with
  | nil => simp [next_of_end ahead]
  | cons first rest =>
      simp only [next_of_cons ahead, reduceCtorEq, iff_false]
      exact (Lexeme.read_takes first rest).kind_ne

theorem skipGapFrom_length_le (inComment : Bool) (position : Position) (text : List Char) :
    (skipGapFrom inComment position text).rest.length ≤ text.length := by
  induction text generalizing inComment position with
  | nil => simp [skipGapFrom]
  | cons char rest inductionHypothesis =>
      unfold skipGapFrom
      split_ifs
      · exact Nat.le_succ_of_le (inductionHypothesis _ _)
      · exact Nat.le_succ_of_le (inductionHypothesis _ _)
      · exact Nat.le_succ_of_le (inductionHypothesis _ _)
      · exact Nat.le_refl _

/-- A token takes at least one character. -/
theorem next_rest_lt {cursor : Cursor} (token : cursor.next.1.token.kind ≠ .endOfInput) :
    cursor.next.2.rest.length < cursor.rest.length := by
  have shorter := skipGapFrom_length_le false cursor.position cursor.rest
  cases ahead : cursor.skipGap.rest with
  | nil => exact absurd ((next_kind_eq_endOfInput_iff cursor).2 ahead) token
  | cons first rest =>
      rw [← skipGap, ahead, List.length_cons] at shorter
      rw [next_of_cons ahead]
      simp only [List.length_drop]
      omega

theorem scanFrom_of_end {cursor : Cursor} (ended : cursor.next.1.token.kind = .endOfInput)
    (bound : List Char) : scanFrom bound cursor = ⟨[], cursor.next.1⟩ := by
  cases bound with
  | nil => rfl
  | cons _ bound => simp only [scanFrom, ended, ↓reduceIte]

/-- The bound of a scan does not matter once it is as long as the text. -/
theorem scanFrom_eq_scan (bound : List Char) (cursor : Cursor)
    (enough : cursor.rest.length ≤ bound.length) : scanFrom bound cursor = cursor.scan := by
  have general : ∀ (left right : List Char) (cursor : Cursor),
      cursor.rest.length ≤ left.length → cursor.rest.length ≤ right.length →
      scanFrom left cursor = scanFrom right cursor := by
    intro left
    induction left with
    | nil =>
        intro right cursor leftEnough _
        have ended : cursor.next.1.token.kind = .endOfInput := by
          by_contra token
          have := next_rest_lt token
          simp only [List.length_nil] at leftEnough
          omega
        rw [scanFrom_of_end ended, scanFrom_of_end ended]
    | cons _ left inductionHypothesis =>
        intro right cursor leftEnough rightEnough
        by_cases ended : cursor.next.1.token.kind = .endOfInput
        · rw [scanFrom_of_end ended, scanFrom_of_end ended]
        · have shorter := next_rest_lt ended
          cases right with
          | nil =>
              simp only [List.length_nil] at rightEnough
              omega
          | cons _ right =>
              simp only [List.length_cons] at leftEnough rightEnough
              simp only [scanFrom, ended, ↓reduceIte]
              rw [inductionHypothesis right cursor.next.2 (by omega) (by omega)]
  exact general bound cursor.rest cursor enough (Nat.le_refl _)

theorem scan_of_end {cursor : Cursor} (ended : cursor.next.1.token.kind = .endOfInput) :
    cursor.scan = ⟨[], cursor.next.1⟩ :=
  scanFrom_of_end ended cursor.rest

/-- A scan is its first token and the scan of what that leaves. -/
theorem scan_of_token {cursor : Cursor} (token : cursor.next.1.token.kind ≠ .endOfInput) :
    cursor.scan =
      { tokens := cursor.next.1 :: cursor.next.2.scan.tokens
        ending := cursor.next.2.scan.ending } := by
  have shorter := next_rest_lt token
  cases text : cursor.rest with
  | nil =>
      rw [text, List.length_nil] at shorter
      omega
  | cons char rest =>
      rw [text, List.length_cons] at shorter
      have after := scanFrom_eq_scan rest cursor.next.2 (by omega)
      unfold scan at after ⊢
      rw [text, scanFrom, ← after]
      simp only [token, ↓reduceIte]

/-- What is in front of a cursor whose scan has a first token. -/
theorem scan_cons {cursor : Cursor} {first : Lexed} {rest : List Lexed}
    (split : cursor.scan.tokens = first :: rest) :
    cursor.next.1.token.kind ≠ .endOfInput ∧ cursor.next.1 = first ∧
      cursor.next.2.scan = ⟨rest, cursor.scan.ending⟩ := by
  have token : cursor.next.1.token.kind ≠ .endOfInput := by
    intro ended
    rw [scan_of_end ended] at split
    cases split
  have whole := scan_of_token token
  rw [whole] at split
  obtain ⟨head, tail⟩ := List.cons.inj split
  exact ⟨token, head, by rw [whole, ← tail]⟩

/-- Induction along the tokens of a text. -/
theorem scan_induction {motive : Cursor → Prop}
    (ending : ∀ cursor : Cursor, cursor.next.1.token.kind = .endOfInput → motive cursor)
    (token : ∀ cursor : Cursor, cursor.next.1.token.kind ≠ .endOfInput → motive cursor.next.2 →
      motive cursor)
    (cursor : Cursor) : motive cursor := by
  by_cases ended : cursor.next.1.token.kind = .endOfInput
  · exact ending cursor ended
  · exact token cursor ended (scan_induction ending token cursor.next.2)
termination_by cursor.rest.length
decreasing_by exact next_rest_lt ended

end Cursor

end AgentScript
