import AgentScript.Proofs.Reading.Inversion
import AgentScript.Proofs.Scan.Literal

/-!
Contract: names, as the canonical text tells them and as the scanner does.

Owns:
- that a text is a plain name exactly if it is read as one name and nothing else;
- the spelling of the names and keywords among the tokens of a script;
- which keys of object literals are written bare, and what is read where a key is written.
-/

set_option autoImplicit false

namespace AgentScript

/-- A text is a plain name exactly if it is read as one name with this value, and nothing else. -/
theorem isPlainName_iff_tokenize (text : String) :
    isPlainName text = true ↔ ∃ place ending,
      (tokenize text).1 = [⟨.identifier, text, place⟩, ⟨.endOfInput, "", ending⟩] := by
  constructor
  · intro plain
    have allows : Kind.identifier.Allows text := plain
    have read := tokenize_tokenText allows (by simp [Kind.EndsBefore])
    rw [tokenText_eq_value text (by simp) (by simp), String.ofList_toList] at read
    exact ⟨_, _, congrArg Prod.fst read⟩
  · rintro ⟨place, ending, tokens⟩
    exact tokenize_wellSpelled text ⟨.identifier, text, place⟩ (by simp [tokens])

/-! ## Keys -/

theorem escape_length_le (quote : Char) (value : List Char) :
    value.length ≤ (escape quote value).length := by
  induction value with
  | nil => exact Nat.zero_le _
  | cons char value inductionHypothesis =>
      have one : 1 ≤ (escapeChar quote char).length := by
        unfold escapeChar
        split_ifs <;> simp
      rw [escape, List.flatMap_cons, ← escape, List.length_append, List.length_cons]
      omega

/-- A text is shorter than the literal that stands for it. -/
theorem stringLiteral_ne (value : String) : stringLiteral value ≠ value := by
  intro same
  have length := congrArg (fun text => text.toList.length) same
  have longer := escape_length_le '\x22' value.toList
  simp only [stringLiteral, String.toList_ofList, List.cons_append, List.length_cons,
    List.length_append, List.length_nil] at length
  omega

/-- A key is written bare exactly if it is a plain name. -/
theorem keyText_eq_iff (key : String) : keyText key = key ↔ isPlainName key = true := by
  unfold keyText
  split
  · next plain => exact iff_of_true rfl plain
  · next noName => exact iff_of_false (stringLiteral_ne key) noName

namespace Cursor

theorem next_token_spelled {kind : Kind} {value : String} {rest written : List Char}
    (spells : Spells kind value rest written) (position : Position) :
    (next ⟨position, written ++ rest⟩).1.token = ⟨kind, value, position⟩ := by
  have noBlanks : ∀ char ∈ ([] : List Char), isBlank char = true := nofun
  have read := next_spelled spells noBlanks position
  rw [List.nil_append] at read
  rw [read]
  rfl

/-- In front of a colon, a plain name is read as a name; no other text is. -/
theorem next_eq_identifier_iff (key : String) (rest : List Char) (position : Position) :
    (next ⟨position, key.toList ++ ':' :: rest⟩).1.token = ⟨.identifier, key, position⟩ ↔
      isPlainName key = true := by
  constructor
  · intro read
    have spelled := next_wellSpelled ⟨position, key.toList ++ ':' :: rest⟩
    rwa [read] at spelled
  · intro plain
    have allows : Kind.identifier.Allows key := plain
    have ends : Kind.identifier.EndsBefore key (':' :: rest) := by
      rintro _ ⟨⟩
      decide +kernel
    obtain ⟨first, more, readsBack⟩ := exists_readsBack allows ends
    have spells := readsBack.spells
    rw [tokenText_eq_value key (by simp) (by simp)] at spells
    exact next_token_spelled spells position

/-- A key is read from its text in front of a colon: as a name if it is written bare, and as a string
otherwise. -/
theorem next_keyText (key : String) (rest : List Char) (position : Position) :
    (next ⟨position, (keyText key).toList ++ ':' :: rest⟩).1.token =
      ⟨if keyText key = key then .identifier else .string, key, position⟩ := by
  by_cases bare : keyText key = key
  · rw [if_pos bare, bare]
    exact (next_eq_identifier_iff key rest position).2 ((keyText_eq_iff key).1 bare)
  · have noName : ¬isPlainName key = true := fun plain => bare ((keyText_eq_iff key).2 plain)
    have allows : Kind.string.Allows key := trivial
    have ends : Kind.string.EndsBefore key (':' :: rest) := by simp [Kind.EndsBefore]
    obtain ⟨first, more, readsBack⟩ := exists_readsBack allows ends
    have spells : Spells .string key (':' :: rest) (stringLiteral key).toList := readsBack.spells
    have text : keyText key = stringLiteral key := if_neg noName
    rw [if_neg bare, text]
    exact next_token_spelled spells position

end Cursor

/-- The canonical text and the scanner agree on names. The plain names are the texts that are read as
one name and nothing else; in every script the names are plain and the keywords are the reserved words
of their kinds; and a key of an object literal is written bare exactly if its own characters are read
as that name there. Written either way, it is read back as the same key. -/
theorem names_agree :
    (∀ text, isPlainName text = true ↔ ∃ place ending,
      (tokenize text).1 = [⟨.identifier, text, place⟩, ⟨.endOfInput, "", ending⟩]) ∧
    (∀ source, ∀ token ∈ (tokenize source).1,
      (token.kind = .identifier → isPlainName token.value = true) ∧
      ∀ keyword, token.kind = .keyword keyword →
        Keyword.ofWord? token.value = some keyword ∧ token.value = keyword.word) ∧
    ∀ key rest position,
      let read (text : String) : Token :=
        (Cursor.next ⟨position, text.toList ++ ':' :: rest⟩).1.token
      (keyText key = key ↔ read key = ⟨.identifier, key, position⟩) ∧
      read (keyText key) =
        ⟨if keyText key = key then .identifier else .string, key, position⟩ ∧
      ∀ state : State, state.current = read (keyText key) →
        Production.objectKey state = .ok key state.advance := by
  refine ⟨isPlainName_iff_tokenize, fun source token member => ⟨fun kind => ?_, ?_⟩,
    fun key rest position => ⟨?_, Cursor.next_keyText key rest position, fun state isCurrent => ?_⟩⟩
  · have spelled := tokenize_wellSpelled source token member
    rwa [Token.WellSpelled, kind] at spelled
  · intro keyword kind
    have spelled := tokenize_wellSpelled source token member
    rw [Token.WellSpelled, kind] at spelled
    have word : keyword.word = token.value := Option.some.inj spelled
    exact ⟨word ▸ Keyword.ofWord?_word keyword, word.symm⟩
  · rw [keyText_eq_iff, Cursor.next_eq_identifier_iff]
  · have isKey := isCurrent.trans (Cursor.next_keyText key rest position)
    rw [Production.objectKey_ok_iff, State.kind, isKey]
    refine ⟨?_, rfl, rfl⟩
    dsimp only
    split
    · exact .inl rfl
    · exact .inr rfl

/-- A reserved word is a keyword where it stands alone, and a key in quotes. -/
theorem names_agree_on_reserved_word :
    let state := State.ofSource "\x22if\x22: 1"
    Keyword.ofWord? "if" = some .ifKw ∧ isPlainName "x" = true ∧ keyText "if" ≠ "if" ∧
      Production.objectKey state = .ok "if" state.advance := by
  intro state
  obtain ⟨_, tokens, keys⟩ := names_agree
  obtain ⟨bare, _, readsKey⟩ := keys "if" [' ', '1'] .start
  have word := (tokens "if" ⟨.keyword .ifKw, "if", .start⟩ (by decide +kernel)).2 .ifKw rfl
  have name := (tokens "x" ⟨.identifier, "x", .start⟩ (by decide +kernel)).1 rfl
  refine ⟨word.1, name, fun same => ?_, readsKey state (by decide +kernel)⟩
  exact absurd (bare.1 same) (by decide +kernel)

end AgentScript
