import AgentScript.Proofs.Scan.ReadBack

/-!
Contract: the scan of a canonical text gives its printed tokens.

Owns:
- legible tokens, each of which is well spelled and ends before the text after it;
- texts that are read as one token, of which the canonical text of a token is one;
- the places of printed tokens;
- the scan of the text of legible tokens.
-/

set_option autoImplicit false

namespace AgentScript

/-- Each of the tokens is well spelled, and ends before the text of those after it and of the rest.
-/
def Legible : List Printed → List Char → Prop
  | [], _ => True
  | printed :: following, rest =>
      (printed.kind.Allows printed.value ∧
        printed.kind.EndsBefore printed.value (printedText following ++ rest)) ∧
        Legible following rest

@[simp] theorem legible_nil (rest : List Char) : Legible [] rest := trivial

@[simp] theorem legible_cons (printed : Printed) (following : List Printed) (rest : List Char) :
    Legible (printed :: following) rest ↔
      (printed.kind.Allows printed.value ∧
        printed.kind.EndsBefore printed.value (printedText following ++ rest)) ∧
        Legible following rest :=
  Iff.rfl

@[simp] theorem legible_append (left right : List Printed) (rest : List Char) :
    Legible (left ++ right) rest ↔
      Legible left (printedText right ++ rest) ∧ Legible right rest := by
  induction left with
  | nil => simp
  | cons printed left inductionHypothesis =>
      simp [inductionHypothesis, and_assoc]

/-- A text that is read as one token in front of the rest of a script. -/
inductive Spells (kind : Kind) (value : String) (rest : List Char) : List Char → Prop where
  | intro {first : Char} {more : List Char} :
      isBlank first = false → first ≠ '#' →
      Lexeme.read first (more ++ rest) = ⟨kind, value.toList, more.length, none⟩ →
      Spells kind value rest (first :: more)

theorem ReadsBack.spells {kind : Kind} {value : String} {rest more : List Char} {first : Char}
    (readsBack : ReadsBack kind value rest first more) :
    Spells kind value rest (tokenText kind value) := by
  rw [readsBack.text]
  exact .intro readsBack.noBlank readsBack.noComment readsBack.lexeme

/-- The tokens at their places, from a given place on. -/
def laid (position : Position) : List Printed → List Lexed
  | [] => []
  | printed :: following =>
      let start := position.afterText printed.gap.text
      let finish := start.afterText (tokenText printed.kind printed.value)
      ⟨⟨printed.kind, printed.value, start⟩, finish.line, none⟩ :: laid finish following

theorem laid_fault? {tokens : List Printed} {position : Position} {lexed : Lexed}
    (member : lexed ∈ laid position tokens) : lexed.fault? = none := by
  induction tokens generalizing position with
  | nil => cases member
  | cons printed following inductionHypothesis =>
      rcases List.mem_cons.1 member with rfl | later
      · rfl
      · exact inductionHypothesis later

namespace Cursor

theorem skipGapFrom_blanks {blanks : List Char} (all : ∀ char ∈ blanks, isBlank char = true)
    (position : Position) (text : List Char) :
    skipGapFrom false position (blanks ++ text) =
      skipGapFrom false (position.afterText blanks) text := by
  induction blanks generalizing position with
  | nil => rfl
  | cons char rest inductionHypothesis =>
      rw [List.cons_append, skipGapFrom]
      simp only [Bool.false_and, Bool.false_eq_true, ↓reduceIte, all char List.mem_cons_self]
      exact inductionHypothesis (fun char member => all char (List.mem_cons_of_mem _ member)) _

theorem isBlank_of_mem_gap (gap : Gap) : ∀ char ∈ gap.text, isBlank char = true := by
  intro char member
  cases gap with
  | none | top => cases member
  | space =>
      obtain rfl := List.mem_singleton.1 member
      decide
  | line depth =>
      rcases List.mem_cons.1 member with rfl | spaces
      · decide
      · obtain rfl := List.eq_of_mem_replicate spaces
        decide

/-- A token is read as the next one after blanks, at its place. -/
theorem next_spelled {kind : Kind} {value : String} {rest written blanks : List Char}
    (spells : Spells kind value rest written) (all : ∀ char ∈ blanks, isBlank char = true)
    (position : Position) :
    next ⟨position, blanks ++ (written ++ rest)⟩ =
      let start := position.afterText blanks
      let finish := start.afterText written
      (⟨⟨kind, value, start⟩, finish.line, none⟩, ⟨finish, rest⟩) := by
  cases spells with
  | @intro first more noBlank noComment lexeme =>
      have skipped : skipGap ⟨position, blanks ++ (first :: more ++ rest)⟩ =
          ⟨position.afterText blanks, first :: (more ++ rest)⟩ := by
        unfold skipGap
        rw [skipGapFrom_blanks all, List.cons_append, skipGapFrom]
        simp [noBlank, noComment]
      rw [next_of_cons (congrArg Cursor.rest skipped), skipped, lexeme]
      simp

/-- A printed token is read as the next one, at its place. -/
theorem next_printed {kind : Kind} {value : String} {rest more : List Char} {first : Char}
    (readsBack : ReadsBack kind value rest first more) (position : Position) (gap : Gap) :
    next ⟨position, gap.text ++ (tokenText kind value ++ rest)⟩ =
      let start := position.afterText gap.text
      let finish := start.afterText (tokenText kind value)
      (⟨⟨kind, value, start⟩, finish.line, none⟩, ⟨finish, rest⟩) :=
  next_spelled readsBack.spells (isBlank_of_mem_gap gap) position

/-- The scan of the text of legible tokens is these tokens at their places, and the scan of the
rest. -/
theorem scan_printed {tokens : List Printed} {rest : List Char} (legible : Legible tokens rest)
    (position : Position) :
    scan ⟨position, printedText tokens ++ rest⟩ =
      let after := scan ⟨position.afterText (printedText tokens), rest⟩
      { tokens := laid position tokens ++ after.tokens, ending := after.ending } := by
  induction tokens generalizing position with
  | nil => rfl
  | cons printed following inductionHypothesis =>
      obtain ⟨⟨allows, ends⟩, legibleFollowing⟩ := legible
      obtain ⟨first, more, readsBack⟩ := exists_readsBack allows ends
      have isNext := next_printed readsBack position printed.gap
      have token : printed.kind ≠ .endOfInput := by
        intro isEnd
        rw [isEnd] at ends
        exact ends
      rw [printedText_cons, List.append_assoc, List.append_assoc, scan_of_token (by rwa [isNext]),
        isNext]
      simp only [inductionHypothesis legibleFollowing, Position.afterText_append, laid,
        List.cons_append]

end Cursor

/-- The scan of the text of legible tokens alone. -/
theorem Cursor.scan_printedText {tokens : List Printed} (legible : Legible tokens []) :
    scan ⟨.start, printedText tokens⟩ =
      let finish := Position.start.afterText (printedText tokens)
      { tokens := laid .start tokens
        ending := ⟨⟨.endOfInput, "", finish⟩, finish.line, none⟩ } := by
  have whole := scan_printed legible .start
  rw [List.append_nil] at whole
  rw [whole, scan_of_end (by rfl)]
  simp [next, skipGap, skipGapFrom]

/-! ## Separators -/

/-- The characters that end every name, number and operator. -/
def separatorChars : List Char :=
  [' ', '\t', '\r', '\n', ')', ']', '\x7d', ',', ':', '(', '[', '.']

/-- Whether no token goes on with the start of a text. A point separates unless a digit follows it.
-/
def Separates (text : List Char) : Prop :=
  ∀ first ∈ text.head?, first ∈ separatorChars ∧
    (first = '.' → ∀ second ∈ text.tail.head?, isDigit second = false)

theorem separates_nil : Separates [] := by simp [Separates]

theorem separates_cons {first : Char} {rest : List Char} (member : first ∈ separatorChars)
    (noPoint : first ≠ '.') : Separates (first :: rest) := by
  rintro _ ⟨⟩
  exact ⟨member, fun point => absurd point noPoint⟩

/-- A space, a new line, or whatever separates. -/
theorem Separates.endsBefore {kind : Kind} {value : String} {rest : List Char}
    (separates : Separates rest) (allows : kind.Allows value)
    (token : kind ≠ .illegal ∧ kind ≠ .endOfInput ∧ kind ≠ .comment) :
    kind.EndsBefore value rest := by
  have noWord : ∀ char ∈ rest.head?, continuesWord char = false := by
    intro char head
    have none : separatorChars.any continuesWord = false := by decide +kernel
    exact Bool.eq_false_iff.2 (List.any_eq_false.1 none char (separates char head).1)
  have noDigit : ∀ char ∈ rest.head?, isDigit char = false := by
    intro char head
    have none : separatorChars.any isDigit = false := by decide
    exact Bool.eq_false_iff.2 (List.any_eq_false.1 none char (separates char head).1)
  have noOperator (first : Char) : rest.head?.bind (doubleOperator? first) = none := by
    cases rest with
    | nil => rfl
    | cons second rest =>
        have none : ∀ second ∈ separatorChars,
            second ≠ '=' ∧ second ≠ '&' ∧ second ≠ '|' ∧ second ≠ '?' := by simp [separatorChars]
        obtain ⟨noEquals, noAnd, noOr, noQuestion⟩ := none second (separates second rfl).1
        simp [doubleOperator?, noEquals, noAnd, noOr, noQuestion]
  have noFraction : fractionText rest = [] := by
    unfold fractionText
    split
    · next following =>
        have stops := (separates '.' rfl).2 rfl
        cases following with
        | nil => rfl
        | cons second following =>
            have noDigit := stops second rfl
            rw [List.takeWhile_cons_of_neg (by simp [noDigit])]
    · rfl
  have noQuote : rest.head? ≠ some '\x22' := by
    intro head
    exact absurd (separates _ head).1 (by decide)
  cases kind with
  | illegal => exact absurd rfl token.1
  | endOfInput => exact absurd rfl token.2.1
  | comment => exact absurd rfl token.2.2
  | identifier => exact noWord
  | keyword _ => exact noWord
  | number => exact ⟨noDigit, noFraction⟩
  | string => exact fun _ => noQuote
  | template => trivial
  | _ => exact fun char _ => noOperator char

end AgentScript
