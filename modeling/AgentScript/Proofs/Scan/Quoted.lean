import AgentScript.Proofs.Scan.Printed
import AgentScript.Proofs.Text.Dedent

/-!
Contract: a word between quotes is read as a string whose value is that word.

Owns:
- where a literal without quotes and backslashes inside ends, and what it stands for;
- the marks that a key can be written between, and the token that is read for it with them.

No character of a word is a quote, a backslash or white space. Hence nothing inside the quotes ends the
literal, is an escape, or goes with the trimming of a text between three quotes.
-/

set_option autoImplicit false

namespace AgentScript

/-! ## Literals without quotes and backslashes inside -/

section

variable {quote : Char} {text : List Char}

theorem Extent.single_append_quote (plain : ∀ char ∈ text, char ≠ quote ∧ char ≠ '\\')
    (rest : List Char) : Extent.single quote (text ++ quote :: rest) = ⟨text, true⟩ := by
  induction text with
  | nil => exact Extent.single_quote
  | cons char text inductionHypothesis =>
      obtain ⟨⟨noQuote, noBackslash⟩, plainRest⟩ := List.forall_mem_cons.1 plain
      rw [List.cons_append, Extent.single_plain noQuote noBackslash, inductionHypothesis plainRest]
      rfl

theorem Extent.triple_append_quotes (noQuote : ∀ char ∈ text, char ≠ quote) (rest : List Char) :
    Extent.triple quote (text ++ quote :: quote :: quote :: rest) = ⟨text, true⟩ := by
  induction text with
  | nil => simp [Extent.triple]
  | cons char text inductionHypothesis =>
      obtain ⟨other, others⟩ := List.forall_mem_cons.1 noQuote
      have goesOn : [quote, quote, quote].isPrefixOf
          (char :: (text ++ quote :: quote :: quote :: rest)) = false := by
        simp [List.isPrefixOf, Ne.symm other]
      rw [List.cons_append, Extent.triple, goesOn, inductionHypothesis others]
      rfl

theorem unescape_of_not_mem (template : Bool) (plain : ∀ char ∈ text, char ≠ '\\') :
    unescape template text = text := by
  induction text with
  | nil => rw [unescape]
  | cons char text inductionHypothesis =>
      obtain ⟨noBackslash, plainRest⟩ := List.forall_mem_cons.1 plain
      rw [unescape_plain template noBackslash, inductionHypothesis plainRest]

theorem trim_of_visible (visible : ∀ char ∈ text, isWhiteSpace char = false) : trim text = text := by
  have noneInFront : text.dropWhile isWhiteSpace = text := by
    cases text with
    | nil => rfl
    | cons first rest =>
        exact List.dropWhile_cons_of_neg (by simp [visible first List.mem_cons_self])
  rw [trim, noneInFront]
  refine List.rdropWhile_eq_self_iff.2 fun nonempty => ?_
  simp [visible _ (List.getLast_mem nonempty)]

namespace Lexeme

theorem read_quote (isQuote : quote = '\x22' ∨ quote = '\x27') (rest : List Char) :
    read quote rest = readString quote rest := by
  rcases isQuote with rfl | rfl
  · rw [read_of_not_mem_operatorChars (by decide)]
    rfl
  · rw [read_of_not_mem_operatorChars (by decide)]
    rfl

/-- A text that is not empty is read from between two quotes. -/
theorem read_quoted (isQuote : quote = '\x22' ∨ quote = '\x27') (nonempty : text ≠ [])
    (plain : ∀ char ∈ text, char ≠ quote ∧ char ≠ '\\') (rest : List Char) :
    read quote (text ++ quote :: rest) = ⟨.string, text, text.length + 1, none⟩ := by
  have noTriple : [quote, quote].isPrefixOf (text ++ quote :: rest) = false := by
    obtain ⟨first, more, rfl⟩ := List.exists_cons_of_ne_nil nonempty
    simp [List.isPrefixOf, Ne.symm (plain first List.mem_cons_self).1]
  have value := unescape_of_not_mem false fun char member => (plain char member).2
  rw [read_quote isQuote, readString, noTriple, Extent.single_append_quote plain]
  simp [delimited, value]

/-- A trimmed text is read from between three quotes and three others. -/
theorem read_tripleQuoted (isQuote : quote = '\x22' ∨ quote = '\x27')
    (noQuote : ∀ char ∈ text, char ≠ quote) (trimmed : trim text = text) (rest : List Char) :
    read quote (quote :: quote :: (text ++ quote :: quote :: quote :: rest)) =
      ⟨.string, text, text.length + 5, none⟩ := by
  have isTriple : [quote, quote].isPrefixOf
      (quote :: quote :: (text ++ quote :: quote :: quote :: rest)) = true := by
    simp [List.isPrefixOf]
  have value := dedent_of_trim_eq trimmed
  have ends := Extent.triple_append_quotes noQuote rest
  rw [read_quote isQuote, readString, isTriple]
  simp only [↓reduceIte, List.drop_succ_cons, List.drop_zero, ends, delimited, value]
  congr 1
  omega

end Lexeme

variable {value : String}

theorem spells_quoted (isQuote : quote = '\x22' ∨ quote = '\x27') (nonempty : value.toList ≠ [])
    (plain : ∀ char ∈ value.toList, char ≠ quote ∧ char ≠ '\\') (rest : List Char) :
    Spells .string value rest (quote :: (value.toList ++ [quote])) := by
  have visible : isBlank quote = false ∧ quote ≠ '#' := by rcases isQuote with rfl | rfl <;> decide
  refine .intro visible.1 visible.2 ?_
  rw [List.append_assoc, List.singleton_append, Lexeme.read_quoted isQuote nonempty plain,
    List.length_append]
  rfl

theorem spells_tripleQuoted (isQuote : quote = '\x22' ∨ quote = '\x27')
    (noQuote : ∀ char ∈ value.toList, char ≠ quote) (trimmed : trim value.toList = value.toList)
    (rest : List Char) :
    Spells .string value rest
      (quote :: quote :: quote :: (value.toList ++ [quote, quote, quote])) := by
  have visible : isBlank quote = false ∧ quote ≠ '#' := by rcases isQuote with rfl | rfl <;> decide
  refine .intro visible.1 visible.2 ?_
  have lexeme := Lexeme.read_tripleQuoted isQuote noQuote trimmed rest
  simpa using lexeme

end

/-! ## Words -/

theorem continuesWord_of_whiteSpace :
    ∀ range ∈ whiteSpaceRanges, ∀ offset ≤ range.2 - range.1,
      continuesWord (Char.ofNat (range.1 + offset)) = false := by
  decide +kernel

/-- No character of a word is a quote, a backslash or white space. -/
theorem apart_of_continuesWord {char : Char} (continues : continuesWord char = true) :
    char ≠ '\x22' ∧ char ≠ '\x27' ∧ char ≠ '\\' ∧ isWhiteSpace char = false := by
  have apart (other : Char) (noWord : continuesWord other = false) : char ≠ other := by
    rintro rfl
    rw [noWord] at continues
    cases continues
  refine ⟨apart _ (by decide +kernel), apart _ (by decide +kernel), apart _ (by decide +kernel),
    Bool.eq_false_iff.2 fun whiteSpace => ?_⟩
  obtain ⟨range, member, least, greatest⟩ :=
    (RangeTable.covers_iff_of_ordered whiteSpaceRanges_ordered char.toNat).1 whiteSpace
  have noWord := continuesWord_of_whiteSpace range member (char.toNat - range.1)
    (Nat.sub_le_sub_right greatest range.1)
  rw [Nat.add_sub_cancel' least, Char.ofNat_toNat] at noWord
  exact apart char noWord rfl

/-! ## Keys -/

/-- What a key of an object literal is written between: nothing, or the quotes of a string. -/
inductive KeyMarks where
  | none
  | quotes
  | singleQuotes
  | tripleQuotes
  | tripleSingleQuotes
deriving DecidableEq, Repr

namespace KeyMarks

def text : KeyMarks → String
  | none => ""
  | quotes => "\x22"
  | singleQuotes => "\x27"
  | tripleQuotes => "\x22\x22\x22"
  | tripleSingleQuotes => "\x27\x27\x27"

/-- The kind of token that a name between these marks is read as. -/
def kind : KeyMarks → Kind
  | none => .identifier
  | quotes | singleQuotes | tripleQuotes | tripleSingleQuotes => .string

/-- A name is read from between any marks. -/
theorem spells (marks : KeyMarks) {name : String} (plain : isPlainName name = true)
    {rest : List Char} (stops : ∀ char ∈ rest.head?, continuesWord char = false) :
    Spells marks.kind name rest (marks.text ++ name ++ marks.text).toList := by
  obtain ⟨first, more, word, starts, continues, _⟩ := isPlainName_iff.1 plain
  have apart : ∀ char ∈ name.toList,
      char ≠ '\x22' ∧ char ≠ '\x27' ∧ char ≠ '\\' ∧ isWhiteSpace char = false := by
    rw [word]
    intro char member
    refine apart_of_continuesWord ?_
    rcases List.mem_cons.1 member with rfl | inMore
    · exact continuesWord_of_startsWord starts
    · exact List.all_eq_true.1 continues char inMore
  have nonempty : name.toList ≠ [] := by simp [word]
  have trimmed := trim_of_visible fun char member => (apart char member).2.2.2
  cases marks with
  | none =>
      have readsBack := readsBack_of_word word starts continues (wordKind_of_isPlainName plain) stops
      simpa [text, kind] using readsBack.spells
  | quotes =>
      simpa [text, kind] using spells_quoted (.inl rfl) nonempty
        (fun char member => ⟨(apart char member).1, (apart char member).2.2.1⟩) rest
  | singleQuotes =>
      simpa [text, kind] using spells_quoted (.inr rfl) nonempty
        (fun char member => ⟨(apart char member).2.1, (apart char member).2.2.1⟩) rest
  | tripleQuotes =>
      simpa [text, kind] using spells_tripleQuoted (.inl rfl) (fun char member => (apart char member).1)
        trimmed rest
  | tripleSingleQuotes =>
      simpa [text, kind] using spells_tripleQuoted (.inr rfl)
        (fun char member => (apart char member).2.1) trimmed rest

end KeyMarks

end AgentScript
