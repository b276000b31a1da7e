import AgentScript.Proofs.Diagnostic.Excerpt
import AgentScript.Proofs.Reading.Diagnosis

/-!
Contract: the caret in the excerpt of a diagnostic stands under the token the diagnostic is about.

Owns:
- that every token stands at a place of the script, and every one but the end of input starts with a
  character of it;
- that the excerpts of the diagnostics of a script point at that character, as far to the right as a
  caret can be drawn;
- that all of them can be drawn where no line is as long as the widest field.
-/

set_option autoImplicit false

namespace AgentScript

/-! ## The places of diagnostics -/

/-- A token of a text stands at a place of the text, and starts with the character there unless it is
the end of input. -/
theorem Partitions.exists_place {before text : List Char} {tokens : List Token}
    (partitions : Partitions before text tokens) :
    ∀ token ∈ tokens, ∃ passed rest, before ++ text = passed ++ rest ∧
      token.position = placeAfter passed ∧ (token.kind ≠ .endOfInput → rest ≠ []) := by
  induction partitions with
  | @ending before gap _ =>
      intro token member
      obtain rfl := List.mem_singleton.1 member
      exact ⟨before ++ gap, [], by simp, rfl, fun other => absurd rfl other⟩
  | @token before gap slice rest token tokens _ nonempty _ place _ _ inductionHypothesis =>
      intro other member
      rcases List.mem_cons.1 member with rfl | later
      · exact ⟨before ++ gap, slice ++ rest, by simp, place, by simp [nonempty]⟩
      · obtain ⟨passed, ahead, split, placeOther⟩ := inductionHypothesis other later
        exact ⟨passed, ahead, by rw [← split]; simp, placeOther⟩

/-- Every diagnostic of a script stands at the place of a token. -/
theorem parse_place (source : String) :
    ∀ diagnostic ∈ (parse source).2.entries, ∃ token ∈ (tokenize source).1,
      diagnostic.position = token.position ∧ ∃ before rest, source.toList = before ++ rest ∧
        token.position = placeAfter before ∧ (token.kind ≠ .endOfInput → rest ≠ []) := by
  intro diagnostic member
  obtain ⟨token, inTokens, place, -⟩ := parse_aboutOneOf source diagnostic member
  have partitions : Partitions [] source.toList (tokenize source).1 :=
    (Cursor.ofSource source).scan_partitions [] rfl
  exact ⟨token, inTokens, place, partitions.exists_place token inTokens⟩

/-- Where no line is as long as the widest field, every diagnostic has its excerpt. -/
theorem parse_caretWidth_le {source : String}
    (short : ∀ line ∈ splitLines source.toList, line.length < maxFieldWidth) :
    ∀ diagnostic ∈ (parse source).2.entries, diagnostic.caretWidth source ≤ maxFieldWidth := by
  intro diagnostic member
  obtain ⟨token, _, place, before, rest, split, placeToken, _⟩ :=
    parse_place source diagnostic member
  have onLine : lastLine before ++ firstLine rest ∈ splitLines source.toList := by
    rw [split]
    exact List.mem_of_getElem? (getElem?_splitLines before rest)
  have width := short _ onLine
  rw [List.length_append] at width
  refine Diagnostic.caretWidth_le ?_
  rw [place, placeToken, column_placeAfter]
  omega

/-! ## Statements far apart -/

/-- A name, blanks, and more. -/
def farApart (blanks : Nat) (rest : List Char) : String :=
  String.ofList ('x' :: (List.replicate blanks ' ' ++ rest))

theorem toList_farApart (blanks : Nat) (rest : List Char) :
    (farApart blanks rest).toList = 'x' :: (List.replicate blanks ' ' ++ rest) :=
  String.toList_ofList

theorem scan_farApart (blanks : Nat) (rest : List Char) :
    (Cursor.ofSource (farApart (blanks + 1) rest)).scan =
      let after := Cursor.scan ⟨⟨1, blanks + 3⟩, rest⟩
      { tokens := ⟨⟨.identifier, "x", ⟨1, 1⟩⟩, 1, none⟩ :: after.tokens, ending := after.ending } := by
  have name : (Cursor.ofSource "x").scan.tokens = [⟨⟨.identifier, "x", ⟨1, 1⟩⟩, 1, none⟩] := by
    decide +kernel
  have ends : EndsWithToken "x" := by
    unfold EndsWithToken
    decide +kernel
  have place : placeAfter "x".toList = ⟨1, 2⟩ := by decide +kernel
  have column : 2 + (blanks + 1) = blanks + 3 := by omega
  rw [Cursor.scan_spaced blanks ends (toList_farApart _ _) (by simp [name])]
  simp only [name, place, column, List.singleton_append]

/-- The field with the caret under a character after the blanks reaches from the name to it. -/
theorem Diagnostic.caretWidth_farApart {diagnostic : Diagnostic} {blanks : Nat} {char : Char}
    (visible : isWhiteSpace char = false) (rest : List Char)
    (place : diagnostic.position = ⟨1, blanks + 2⟩) :
    diagnostic.caretWidth (farApart blanks (char :: rest)) = blanks + 2 := by
  have noFeed : '\n' ∉ 'x' :: List.replicate blanks ' ' := by simp [List.mem_replicate]
  have whole : lastLine ('x' :: List.replicate blanks ' ') = 'x' :: List.replicate blanks ' ' := by
    rcases lastLine_cases ('x' :: List.replicate blanks ' ') with ⟨_, whole⟩ | ⟨above, split, _⟩
    · exact whole
    · exact absurd (split ▸ List.mem_append_right _ List.mem_cons_self) noFeed
  have placeBlanks : placeAfter ('x' :: List.replicate blanks ' ') = ⟨1, blanks + 2⟩ := by
    have column : 1 + (blanks + 1) = blanks + 2 := by omega
    simp [placeAfter, List.count_eq_zero.2 noFeed, column]
  rw [caretWidth_of_visible (toList_farApart _ _) (place.trans placeBlanks.symm) visible, whole,
    List.dropWhile_cons_of_neg (by decide), List.length_cons, List.length_replicate]

/-! ## The caret -/

/-- Every diagnostic of a script stands where a token of the script does. If that token is not the end
of input and its first character is no white space, which an excerpt may trim, then the caret of the
excerpt stands under that character, unless the text shown up to it is wider than a field can be: then
there is no excerpt. -/
theorem parse_caret (source : String) :
    ∀ diagnostic ∈ (parse source).2.entries, ∃ token ∈ (tokenize source).1,
      diagnostic.position = token.position ∧
      (token.kind ≠ .endOfInput → ∃ before first rest,
        source.toList = before ++ first :: rest ∧ token.position = placeAfter before ∧
        (isWhiteSpace first = false → ∀ file,
          if ((lastLine before).dropWhile isIndent).length < maxFieldWidth then
            ∃ text, diagnostic.excerpt? source file = some text ∧ CaretUnder first text
          else diagnostic.excerpt? source file = none)) := by
  intro diagnostic member
  obtain ⟨token, inTokens, place, before, rest, split, placeToken, ahead⟩ :=
    parse_place source diagnostic member
  refine ⟨token, inTokens, place, fun notEnding => ?_⟩
  obtain ⟨first, more, rfl⟩ := List.exists_cons_of_ne_nil (ahead notEnding)
  refine ⟨before, first, more, split, placeToken, fun visible file => ?_⟩
  have atPlace := place.trans placeToken
  have width := Diagnostic.caretWidth_of_visible split atPlace visible
  split_ifs with fits
  · exact Diagnostic.exists_excerpt? split atPlace visible (by omega) file
  · rw [Diagnostic.excerpt?_eq_none_iff]
    omega

/-- Two statements on an indented line: the caret stands under the second one. -/
theorem parse_caret_indented :
    ⟨.sameLineStatement "identifier 'z'", ⟨2, 9⟩⟩ ∈ (parse "a\n  y = 1 z").2.entries ∧
      ∃ text, Diagnostic.excerpt? ⟨.sameLineStatement "identifier 'z'", ⟨2, 9⟩⟩
        "a\n  y = 1 z" "main.as" = some text ∧ CaretUnder 'z' text := by
  have reported : (⟨.sameLineStatement "identifier 'z'", ⟨2, 9⟩⟩ : Diagnostic) ∈
      (parse "a\n  y = 1 z").2.entries := by decide +kernel
  have isName : ∀ token ∈ (tokenize "a\n  y = 1 z").1,
      ⟨2, 9⟩ = token.position → token.kind ≠ .endOfInput := by decide +kernel
  have isZ : ∀ count < 11, ⟨2, 9⟩ = placeAfter ("a\n  y = 1 z".toList.take count) →
      "a\n  y = 1 z".toList[count]? = some 'z' ∧
        ((lastLine ("a\n  y = 1 z".toList.take count)).dropWhile isIndent).length <
          maxFieldWidth := by decide +kernel
  have length : "a\n  y = 1 z".toList.length = 11 := by decide +kernel
  obtain ⟨token, member, place, caret⟩ := parse_caret _ _ reported
  obtain ⟨before, first, rest, split, placeBefore, under⟩ := caret (isName token member place)
  rw [split, List.length_append, List.length_cons] at length
  have char := isZ before.length (by omega)
  rw [split, List.take_left, List.getElem?_append_right (Nat.le_refl _), Nat.sub_self,
    List.getElem?_cons_zero, Option.some.injEq] at char
  obtain ⟨rfl, narrow⟩ := char (place.trans placeBefore)
  have drawn := under (by decide) "main.as"
  rw [if_pos narrow] at drawn
  exact ⟨reported, drawn⟩

/-- A second statement so far to the right that no excerpt can point at it. -/
theorem parse_caret_too_far :
    (⟨.sameLineStatement "identifier 'y'", ⟨1, 70002⟩⟩ : Diagnostic) ∈
        (parse (farApart 70000 ['y'])).2.entries ∧
      ⟨.identifier, "y", ⟨1, 70002⟩⟩ ∈ (tokenize (farApart 70000 ['y'])).1 ∧
      isWhiteSpace 'y' = false ∧
      ∀ file, Diagnostic.excerpt? ⟨.sameLineStatement "identifier 'y'", ⟨1, 70002⟩⟩
        (farApart 70000 ['y']) file = none := by
  have after : (Cursor.scan ⟨⟨1, 70002⟩, ['y']⟩).tokens =
        [⟨⟨.identifier, "y", ⟨1, 70002⟩⟩, 1, none⟩] ∧
      (Cursor.scan ⟨⟨1, 70002⟩, ['y']⟩).ending = ⟨⟨.endOfInput, "", ⟨1, 70003⟩⟩, 1, none⟩ := by
    decide +kernel
  have scan := scan_farApart 69999 ['y']
  simp only [Nat.reduceAdd, after] at scan
  refine ⟨?_, ?_, by decide, fun file => ?_⟩
  · have start : State.ofSource (farApart 70000 ['y']) = State.ofScan _ :=
      congrArg State.ofScan scan
    rw [parse, start]
    decide +kernel
  · rw [tokenize, scan]
    decide
  · have visible : isWhiteSpace 'y' = false := by decide
    rw [Diagnostic.excerpt?_eq_none_iff, Diagnostic.caretWidth_farApart visible [] rfl]
    decide

end AgentScript
