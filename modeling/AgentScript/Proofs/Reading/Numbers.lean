import AgentScript.Proofs.Reading.Consumption
import AgentScript.Proofs.Reading.Diagnosis
import AgentScript.Proofs.Reading.Inversion
import AgentScript.Proofs.Scan.Literal

/-!
Contract: numbers, from the script to the tree.

Owns:
- the form of a number, and that it goes as far as it can;
- that each token is the lexeme of the text where it stands, and what that says of numbers;
- that no reading fails for a number.
-/

set_option autoImplicit false

namespace AgentScript

/-! ## The extent of a number -/

def IsDigits (text : List Char) : Prop := text ≠ [] ∧ ∀ char ∈ text, isDigit char = true

/-- A number in front of a text that it could not go on with. -/
inductive NumberBefore (after : List Char) : List Char → Prop where
  | whole {digits : List Char} :
      IsDigits digits → (∀ char ∈ after.head?, isDigit char = false) →
      (∀ char more, after = '.' :: char :: more → isDigit char = false) →
      NumberBefore after digits
  | fraction {whole digits : List Char} :
      IsDigits whole → IsDigits digits → (∀ char ∈ after.head?, isDigit char = false) →
      NumberBefore after (whole ++ '.' :: digits)

theorem isDigit_head?_dropWhile (text : List Char) :
    ∀ char ∈ (text.dropWhile isDigit).head?, isDigit char = false := by
  intro char head
  have stops := List.head?_dropWhile_not isDigit text
  rw [head] at stops
  simpa using stops

/-- A fraction goes as far as it can, after the digits that a number starts with. -/
theorem fractionText_before {whole : List Char} (isWhole : IsDigits whole) {following : List Char}
    (stops : ∀ char ∈ following.head?, isDigit char = false) :
    ∃ after, following = fractionText following ++ after ∧
      NumberBefore after (whole ++ fractionText following) := by
  unfold fractionText
  split
  · next rest =>
      have split : rest.takeWhile isDigit ++ rest.dropWhile isDigit = rest :=
        List.takeWhile_append_dropWhile
      cases found : rest.takeWhile isDigit with
      | nil =>
          refine ⟨'.' :: rest, rfl, ?_⟩
          rw [List.append_nil]
          refine .whole isWhole stops fun char more same => ?_
          obtain rfl := (List.cons.inj same).2
          exact Bool.eq_false_iff.2 fun digit => by simp [digit] at found
      | cons digit digits =>
          refine ⟨rest.dropWhile isDigit, by simp [← found], ?_⟩
          refine .fraction isWhole ⟨List.cons_ne_nil _ _, ?_⟩ (isDigit_head?_dropWhile rest)
          exact found ▸ fun char member => List.mem_takeWhile_imp member
  · next noPoint =>
      refine ⟨following, rfl, ?_⟩
      rw [List.append_nil]
      exact .whole isWhole stops fun char more same => absurd same (noPoint _)

/-- A number goes as far as it can. -/
theorem numberText_before {first : Char} (digit : isDigit first = true) (rest : List Char) :
    ∃ after, first :: rest = numberText (first :: rest) ++ after ∧
      NumberBefore after (numberText (first :: rest)) := by
  have isWhole : IsDigits ((first :: rest).takeWhile isDigit) :=
    ⟨by simp [digit], fun char member => List.mem_takeWhile_imp member⟩
  have split : (first :: rest).takeWhile isDigit ++ (first :: rest).dropWhile isDigit =
      first :: rest := List.takeWhile_append_dropWhile
  have following : (first :: rest).drop ((first :: rest).takeWhile isDigit).length =
      (first :: rest).dropWhile isDigit := by
    conv => lhs; arg 2; rw [← split]
    exact List.drop_left
  obtain ⟨after, splitFraction, before⟩ :=
    fractionText_before isWhole (isDigit_head?_dropWhile (first :: rest))
  refine ⟨after, ?_, ?_⟩
  · rw [numberText, following, List.append_assoc, ← splitFraction, split]
  · rw [numberText, following]
    exact before

/-! ## Tokens as lexemes -/

/-- Each token is the lexeme of the text where it stands. -/
theorem Cursor.exists_lexeme (cursor : Cursor) (before : List Char)
    (place : cursor.position = placeAfter before) :
    ∀ lexed ∈ cursor.scan.tokens, ∃ passed first rest,
      before ++ cursor.rest = passed ++ first :: rest ∧
      lexed.token = ⟨(Lexeme.read first rest).kind, String.ofList (Lexeme.read first rest).value,
        placeAfter passed⟩ := by
  induction cursor using scan_induction generalizing before with
  | ending cursor ended => simp [scan_of_end ended]
  | token cursor token inductionHypothesis =>
      rw [scan_of_token token]
      intro lexed member
      rcases List.mem_cons.1 member with rfl | later
      · obtain ⟨gap, split, _, placeGap⟩ := cursor.skipGap_split
        cases ahead : cursor.skipGap.rest with
        | nil => exact absurd ((next_kind_eq_endOfInput_iff cursor).2 ahead) token
        | cons first rest =>
            refine ⟨before ++ gap, first, rest, ?_, ?_⟩
            · rw [split, ahead, List.append_assoc]
            · rw [next_of_cons ahead, placeGap, place, placeAfter_append]
      · obtain ⟨gap, slice, split, _, _, _, placeNext, _⟩ := next_split token
        rw [place, ← placeAfter_append] at placeNext
        have found := inductionHypothesis (before ++ (gap ++ slice)) placeNext lexed later
        rwa [List.append_assoc, ← split] at found

theorem Lexeme.read_of_number {first : Char} {rest : List Char}
    (isNumber : (read first rest).kind = .number) :
    isDigit first = true ∧ (read first rest).value = numberText (first :: rest) := by
  have noFixedText {kind : Kind} {text : String} (only : kind.fixedText? = some text) :
      kind ≠ .number := by
    rintro rfl
    cases only
  cases double : rest.head?.bind (doubleOperator? first) with
  | some kind =>
      obtain ⟨second, ahead, found⟩ := Option.bind_eq_some_iff.1 double
      obtain ⟨more, rfl⟩ := List.head?_eq_some_iff.1 ahead
      rw [read_double found] at isNumber
      exact absurd isNumber (noFixedText (fixedText?_of_doubleOperator? found))
  | none =>
      cases single : singleOperator? first with
      | some kind =>
          rw [read_single single double] at isNumber
          exact absurd isNumber (noFixedText (fixedText?_of_singleOperator? single))
      | none =>
          rw [read_of_noOperator double single] at isNumber ⊢
          split_ifs at isNumber ⊢ with isQuote isTemplate digit isWord
          · unfold readString at isNumber
            split at isNumber <;> cases isNumber
          · cases isNumber
          · exact ⟨digit, rfl⟩
          · unfold wordKind at isNumber
            simp only [plain] at isNumber
            split at isNumber <;> cases isNumber
          · cases isNumber

/-- Every number token of a script goes as far as it can. -/
theorem tokenize_number {source : String} {token : Token} (member : token ∈ (tokenize source).1)
    (isNumber : token.kind = .number) :
    ∃ before after, source.toList = before ++ (token.value.toList ++ after) ∧
      token.position = placeAfter before ∧ NumberBefore after token.value.toList := by
  obtain ⟨lexed, inScan, rfl⟩ := List.mem_map.1 member
  rcases List.mem_append.1 inScan with inTokens | isEnding
  · obtain ⟨before, first, rest, text, isLexeme⟩ :=
      (Cursor.ofSource source).exists_lexeme [] rfl lexed inTokens
    rw [isLexeme] at isNumber ⊢
    obtain ⟨digit, value⟩ := Lexeme.read_of_number isNumber
    obtain ⟨after, split, longest⟩ := numberText_before digit rest
    refine ⟨before, after, ?_, rfl, ?_⟩
    · rw [String.toList_ofList, value, ← split]
      exact text
    · rw [String.toList_ofList, value]
      exact longest
  · obtain rfl := List.mem_singleton.1 isEnding
    rw [(Cursor.ofSource source).scan_ending.1] at isNumber
    cases isNumber

/-! ## No number fails -/

/-- An operand of one token can be read in every state of reading a script. -/
theorem Production.primary_succeeds {source : String} {state : State}
    (visits : (State.ofSource source).Visits state) :
    ∃ value, primary state = .ok value state.advance := by
  have spelled := ((State.scanned_ofSource _).of_visits visits).current_wellSpelled
  have operand : ∃ value, tokenOperand? state.current = some value := by
    unfold tokenOperand?
    cases kind : state.current.kind with
    | number =>
        have isNumber := spelled (by rw [State.kind, kind]; simp)
        rw [Token.WellSpelled, kind] at isNumber
        obtain ⟨number, found⟩ := Decimal.ofText?_isSome isNumber
        exact ⟨.number state.current number, by simp [found]⟩
    | _ => exact ⟨_, rfl⟩
  obtain ⟨value, found⟩ := operand
  exact ⟨value, primary_ok_iff.2 ⟨found, rfl⟩⟩

/-- The numbers of a script are digits, or digits, a point and digits, and go as far as they can. No
state of reading the script fails to give a value for one, and no diagnostic says that it does. -/
theorem numbers_succeed (source : String) :
    (∀ token ∈ (tokenize source).1, token.kind = .number →
      ∃ before after, source.toList = before ++ (token.value.toList ++ after) ∧
        token.position = placeAfter before ∧ NumberBefore after token.value.toList) ∧
    (∀ state, (State.ofSource source).Visits state →
      ∃ value, Production.primary state = .ok value state.advance) ∧
    ∀ diagnostic ∈ (parse source).2.entries, ∀ text, diagnostic.fault ≠ .malformedNumber text := by
  refine ⟨fun token => tokenize_number, fun state => Production.primary_succeeds,
    fun diagnostic recorded text isMalformed => ?_⟩
  obtain ⟨token, member, _, describes⟩ := parse_aboutOneOf source diagnostic recorded
  rw [isMalformed] at describes
  exact not_describes_malformedNumber (tokenize_wellSpelled source token member) text describes

/-- A second point is not part of a number, and what is wrong with the script is not the number. -/
theorem numbers_succeed_before_second_point :
    let source := "1.5.2"
    (∃ before after, source.toList = before ++ ("1.5".toList ++ after) ∧
      Position.start = placeAfter before ∧ NumberBefore after "1.5".toList) ∧
    (∃ value, Production.primary (State.ofSource source) =
      .ok value (State.ofSource source).advance) ∧
    (parse source).2.entries ≠ [] ∧
    ∀ diagnostic ∈ (parse source).2.entries, ∀ text, diagnostic.fault ≠ .malformedNumber text := by
  intro source
  obtain ⟨tokens, succeeds, noFault⟩ := numbers_succeed source
  exact ⟨tokens ⟨.number, "1.5", .start⟩ (by decide +kernel) rfl, succeeds _ (.reaches (.refl _)),
    by decide +kernel, noFault⟩

end AgentScript
