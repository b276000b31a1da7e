import AgentScript.Proofs.Literal.RoundTrip
import AgentScript.Proofs.Scan.Spelling
import AgentScript.Proofs.Tree.PrintedText

/-!
Contract: a token that is written in a canonical text is read back as it was, where the text after
it does not run on with it.

Owns:
- what may stand after a token of each kind;
- the lexeme at the start of the text of a well-spelled token;
- the scan of printed tokens one after the other.
-/

set_option autoImplicit false

namespace AgentScript

/-! ## The lexeme at the start of a text -/

/-- The characters that operators, brackets and separators start with. -/
def operatorChars : List Char :=
  ['=', '!', '<', '>', '&', '|', '?', '+', '-', '*', '/', '%', '\x7b', '\x7d', '[', ']', '(', ')',
    ',', ':', ';', '.']

theorem doubleOperator?_eq_none {first : Char} (apart : first ∉ operatorChars) (second : Char) :
    doubleOperator? first second = none := by
  simp only [operatorChars, List.mem_cons, not_or] at apart
  simp [doubleOperator?, apart]

theorem singleOperator?_eq_none {char : Char} (apart : char ∉ operatorChars) :
    singleOperator? char = none := by
  simp only [operatorChars, List.mem_cons, not_or] at apart
  simp [singleOperator?, apart]

theorem not_mem_operatorChars_of_startsWord {char : Char} (starts : startsWord char = true) :
    char ∉ operatorChars := by
  intro member
  have none : operatorChars.any startsWord = false := by decide +kernel
  exact List.any_eq_false.1 none char member starts

theorem not_mem_operatorChars_of_isDigit {char : Char} (digit : isDigit char = true) :
    char ∉ operatorChars := by
  intro member
  have none : operatorChars.any isDigit = false := by decide
  exact List.any_eq_false.1 none char member digit

theorem toNat_of_isDigit {char : Char} (digit : isDigit char = true) :
    0x30 ≤ char.toNat ∧ char.toNat ≤ 0x39 := by
  simp only [isDigit, Bool.and_eq_true, decide_eq_true_eq] at digit
  exact digit

/-- No word starts with a digit. -/
theorem startsWord_of_isDigit {char : Char} (digit : isDigit char = true) :
    startsWord char = false := by
  obtain ⟨least, greatest⟩ := toNat_of_isDigit digit
  have none : ∀ code ≤ 0x39, 0x30 ≤ code → startsWord (Char.ofNat code) = false := by
    decide +kernel
  have noWord := none char.toNat greatest least
  rwa [Char.ofNat_toNat] at noWord

theorem isDigit_of_startsWord {char : Char} (starts : startsWord char = true) :
    isDigit char = false := by
  by_contra digit
  rw [startsWord_of_isDigit (by simpa using digit)] at starts
  cases starts

/-- A fraction is nothing, or a point and at least one digit. -/
theorem fractionText_cases (text : List Char) :
    fractionText text = [] ∨ ∃ digits, digits ≠ [] ∧ (∀ char ∈ digits, isDigit char = true) ∧
      fractionText text = '.' :: digits := by
  unfold fractionText
  split
  · next rest =>
      split
      · exact .inl rfl
      · next nonempty =>
          exact .inr ⟨_, nonempty, fun char member => List.mem_takeWhile_imp member, rfl⟩
  · exact .inl rfl

/-- Digits are read up to the first character that is none. -/
theorem takeWhile_isDigit_append {digits rest : List Char}
    (all : ∀ char ∈ digits, isDigit char = true)
    (stops : ∀ char ∈ rest.head?, isDigit char = false) :
    (digits ++ rest).takeWhile isDigit = digits := by
  rw [List.takeWhile_append_of_pos all]
  cases rest with
  | nil => simp
  | cons char rest => simp [stops char rfl]

/-- A number is read up to the first character that does not continue it. -/
theorem numberText_append {text rest : List Char} (isNumber : numberText text = text)
    (stops : ∀ char ∈ rest.head?, isDigit char = false) (noFraction : fractionText rest = []) :
    numberText (text ++ rest) = text := by
  have split : text.takeWhile isDigit ++
      fractionText (text.drop (text.takeWhile isDigit).length) = text := isNumber
  have all : ∀ char ∈ text.takeWhile isDigit, isDigit char = true :=
    fun char member => List.mem_takeWhile_imp member
  have fraction := fractionText_cases (text.drop (text.takeWhile isDigit).length)
  generalize text.takeWhile isDigit = whole at split all fraction
  generalize fractionText (text.drop whole.length) = written at split fraction
  subst split
  unfold numberText
  rcases fraction with rfl | ⟨digits, nonempty, allDigits, rfl⟩
  · simp only [List.append_nil, takeWhile_isDigit_append all stops, List.drop_left, noFraction]
  · have point : ∀ char ∈ ('.' :: digits ++ rest).head?, isDigit char = false := by
      rintro _ ⟨⟩
      decide
    simp only [List.append_assoc, takeWhile_isDigit_append all point, List.drop_left]
    rw [List.cons_append, fractionText, takeWhile_isDigit_append allDigits stops]
    cases digits with
    | nil => exact absurd rfl nonempty
    | cons digit digits => rfl

namespace Lexeme

variable {first second : Char} {more rest : List Char} {kind : Kind}

/-- What is read where no operator stands. -/
theorem read_of_noOperator (double : rest.head?.bind (doubleOperator? first) = none)
    (single : singleOperator? first = none) :
    read first rest =
      if first = '\x22' || first = '\x27' then readString first rest
      else if first = '\x60' then readTemplate rest
      else if isDigit first then plain .number (numberText (first :: rest))
      else if startsWord first then plain (wordKind (wordText first rest)) (wordText first rest)
      else plain .illegal [first] := by
  unfold read
  simp only [double, single]

theorem read_of_not_mem_operatorChars (apart : first ∉ operatorChars) :
    read first rest =
      if first = '\x22' || first = '\x27' then readString first rest
      else if first = '\x60' then readTemplate rest
      else if isDigit first then plain .number (numberText (first :: rest))
      else if startsWord first then plain (wordKind (wordText first rest)) (wordText first rest)
      else plain .illegal [first] := by
  refine read_of_noOperator ?_ (singleOperator?_eq_none apart)
  cases rest with
  | nil => rfl
  | cons second rest => exact doubleOperator?_eq_none apart second

theorem read_double (found : doubleOperator? first second = some kind) :
    read first (second :: rest) = ⟨kind, [first, second], 1, none⟩ := by
  unfold read
  simp [found, plain]

theorem read_single (found : singleOperator? first = some kind)
    (apart : rest.head?.bind (doubleOperator? first) = none) :
    read first rest = ⟨kind, [first], 0, none⟩ := by
  unfold read
  simp [apart, found, plain]

/-- A word is read up to the first character that does not continue it. -/
theorem read_word (starts : startsWord first = true) (continues : more.all continuesWord = true)
    (stops : ∀ char ∈ rest.head?, continuesWord char = false) :
    read first (more ++ rest) = ⟨wordKind (first :: more), first :: more, more.length, none⟩ := by
  have apart (char : Char) (other : startsWord char = false) : first ≠ char := by
    rintro rfl
    rw [other] at starts
    cases starts
  have noDigit := isDigit_of_startsWord starts
  have word : wordText first (more ++ rest) = first :: more := by
    unfold wordText
    rw [List.takeWhile_append_of_pos (List.all_eq_true.1 continues)]
    cases rest with
    | nil => simp
    | cons char rest =>
        rw [List.takeWhile_cons_of_neg (by simp [stops char rfl])]
        simp
  rw [read_of_not_mem_operatorChars (not_mem_operatorChars_of_startsWord starts)]
  simp [apart '\x22' (by decide +kernel), apart '\x27' (by decide +kernel),
    apart '\x60' (by decide +kernel), noDigit, starts, word, plain]

theorem read_number (digit : isDigit first = true)
    (isNumber : numberText (first :: more) = first :: more)
    (stops : ∀ char ∈ rest.head?, isDigit char = false) (noFraction : fractionText rest = []) :
    read first (more ++ rest) = ⟨.number, first :: more, more.length, none⟩ := by
  have apart (char : Char) (other : isDigit char = false) : first ≠ char := by
    rintro rfl
    rw [other] at digit
    cases digit
  have text := numberText_append isNumber stops noFraction
  rw [List.cons_append] at text
  rw [read_of_not_mem_operatorChars (not_mem_operatorChars_of_isDigit digit)]
  simp [apart '\x22' (by decide), apart '\x27' (by decide), apart '\x60' (by decide), digit, text,
    plain]

/-- A string is read up to its closing quote. An empty one must not go on with a third quote. -/
theorem read_stringLiteral (value : String) (stops : value = "" → rest.head? ≠ some '\x22') :
    read '\x22' (escape '\x22' value.toList ++ '\x22' :: rest) =
      ⟨.string, value.toList, (escape '\x22' value.toList).length + 1, none⟩ := by
  have readsBack := escape_readsBackAs false value.toList
  have extent := readsBack.extent rest
  have single : ['\x22', '\x22'].isPrefixOf
      (escape '\x22' value.toList ++ '\x22' :: rest) = false := by
    rw [Bool.eq_false_iff]
    intro opens
    cases text : value.toList with
    | nil =>
        rw [text] at opens
        have empty : value = "" := String.toList_eq_nil_iff.1 text
        refine stops empty ?_
        obtain ⟨tail, rest⟩ := List.isPrefixOf_iff_prefix.1 opens
        simp only [escape, List.flatMap_nil, List.nil_append, List.cons_append,
          List.cons.injEq, true_and] at rest
        rw [← rest]
        rfl
    | cons char chars =>
        rw [text, escape, List.flatMap_cons] at opens
        have writtenAs : WrittenAs false char (escapeChar '\x22' char) :=
          escapeChar_writtenAs false char
        generalize escapeChar '\x22' char = unit at writtenAs opens
        cases writtenAs with
        | itself _ noQuote =>
            simp only [List.cons_append, List.isPrefixOf, Bool.and_eq_true, beq_iff_eq] at opens
            exact noQuote opens.1.symm
        | mark => simp [List.isPrefixOf] at opens
        | code => simp [List.isPrefixOf] at opens
  rw [read_of_not_mem_operatorChars (by decide)]
  simp only [writingQuote, Bool.false_eq_true, ↓reduceIte] at extent readsBack
  simp [readString, single, extent, readsBack.value, delimited]

theorem read_templateLiteral (value : String) :
    read '\x60' (restoreDollars (escape '\x60' value.toList) ++ '\x60' :: rest) =
      ⟨.template, value.toList, (restoreDollars (escape '\x60' value.toList)).length + 1, none⟩ := by
  have readsBack := restoreDollars_readsBackAs value.toList
  have extent := readsBack.extent rest
  rw [read_of_not_mem_operatorChars (by decide)]
  simp only [writingQuote, ↓reduceIte] at extent readsBack
  simp [readTemplate, extent, readsBack.value, delimited]

end Lexeme

/-! ## What may stand after a token -/

/-- Whether a token of the given kind and value ends before a text: the text does not start with
anything that the token would go on with. -/
def Kind.EndsBefore (kind : Kind) (value : String) (rest : List Char) : Prop :=
  match kind with
  | .identifier | .keyword _ => ∀ char ∈ rest.head?, continuesWord char = false
  | .number => (∀ char ∈ rest.head?, isDigit char = false) ∧ fractionText rest = []
  | .string => value = "" → rest.head? ≠ some '\x22'
  | .template => True
  | .illegal | .endOfInput | .comment => False
  | _ => ∀ char, value.toList = [char] → rest.head?.bind (doubleOperator? char) = none

/-- The text of an operator, bracket or separator has one or two characters. -/
theorem Kind.operator_cases {kind : Kind} {text : String} (only : kind.fixedText? = some text) :
    (∃ word, kind = .keyword word ∧ text = word.word) ∨
      (∃ first, text.toList = [first] ∧ singleOperator? first = some kind) ∨
      ∃ first second, text.toList = [first, second] ∧ doubleOperator? first second = some kind := by
  cases kind <;> cases only
  case keyword word => exact .inl ⟨word, rfl, rfl⟩
  case equals | notEquals | lessEquals | greaterEquals | or | and | nullish =>
    exact .inr (.inr ⟨_, _, rfl, rfl⟩)
  all_goals exact .inr (.inl ⟨_, rfl, rfl⟩)

theorem isPlainName_iff {text : String} :
    isPlainName text = true ↔ ∃ first rest, text.toList = first :: rest ∧
      startsWord first = true ∧ rest.all continuesWord = true ∧ Keyword.ofWord? text = none := by
  unfold isPlainName
  cases text.toList with
  | nil => simp
  | cons first rest => simp [and_assoc]

/-- The first character of a keyword and what follows it. -/
theorem Keyword.word_cons (word : Keyword) :
    ∃ first rest, word.word.toList = first :: rest ∧ startsWord first = true ∧
      rest.all continuesWord = true := by
  cases word <;> exact ⟨_, _, rfl, by decide +kernel, by decide +kernel⟩

theorem wordKind_word (word : Keyword) : wordKind word.word.toList = .keyword word := by
  unfold wordKind
  rw [String.ofList_toList, Keyword.ofWord?_word]

theorem wordKind_of_isPlainName {text : String} (plain : isPlainName text = true) :
    wordKind text.toList = .identifier := by
  obtain ⟨_, _, _, _, _, noKeyword⟩ := isPlainName_iff.1 plain
  unfold wordKind
  rw [String.ofList_toList, noKeyword]

/-- A class of characters without the blanks. -/
theorem isBlank_eq_false {char : Char} (member : Char → Bool) (holds : member char = true)
    (none : [' ', '\t', '\r', '\n'].any member = false) : isBlank char = false := by
  rw [Bool.eq_false_iff]
  intro blank
  have isOne : char ∈ [' ', '\t', '\r', '\n'] := by
    simpa only [isBlank, Bool.or_eq_true, decide_eq_true_eq, List.mem_cons, List.not_mem_nil,
      or_false, or_assoc] using blank
  exact List.any_eq_false.1 none char isOne holds

/-- What is read at the start of the text of a token. -/
structure ReadsBack (kind : Kind) (value : String) (rest : List Char) (first : Char)
    (more : List Char) : Prop where
  text : tokenText kind value = first :: more
  noBlank : isBlank first = false
  noComment : first ≠ '#'
  lexeme : Lexeme.read first (more ++ rest) = ⟨kind, value.toList, more.length, none⟩

theorem readsBack_of_word {kind : Kind} {value : String} {rest more : List Char} {first : Char}
    (text : value.toList = first :: more) (starts : startsWord first = true)
    (continues : more.all continuesWord = true) (word : wordKind value.toList = kind)
    (stops : ∀ char ∈ rest.head?, continuesWord char = false) :
    ReadsBack kind value rest first more where
  text := by rw [← word, tokenText_wordKind, text]
  noBlank := isBlank_eq_false startsWord starts (by decide +kernel)
  noComment := by
    rintro rfl
    exact absurd starts (by decide +kernel)
  lexeme := by
    rw [Lexeme.read_word starts continues stops, ← word, text]

theorem readsBack_of_single {kind : Kind} {value : String} {rest : List Char} {first : Char}
    (only : kind.fixedText? = some value) (single : value.toList = [first])
    (found : singleOperator? first = some kind)
    (apart : rest.head?.bind (doubleOperator? first) = none) : ReadsBack kind value rest first [] where
  text := by rw [tokenText_of_fixedText? only, single]
  noBlank := isBlank_eq_false (fun char => (singleOperator? char).isSome) (by simp [found])
    (by decide)
  noComment := by
    rintro rfl
    cases found
  lexeme := by
    rw [List.nil_append, Lexeme.read_single found apart, single]
    rfl

theorem readsBack_of_double {kind : Kind} {value : String} {rest : List Char}
    {first second : Char} (only : kind.fixedText? = some value)
    (double : value.toList = [first, second]) (found : doubleOperator? first second = some kind) :
    ReadsBack kind value rest first [second] where
  text := by rw [tokenText_of_fixedText? only, double]
  noBlank := by
    have member : first ∈ operatorChars := by
      by_contra apart
      rw [doubleOperator?_eq_none apart] at found
      cases found
    exact isBlank_eq_false (fun char => decide (char ∈ operatorChars)) (by simpa using member)
      (by decide)
  noComment := by
    rintro rfl
    cases found
  lexeme := by
    rw [List.singleton_append, Lexeme.read_double found, double]
    rfl

/-- The text of a well-spelled token is read back as that token, before a text that it ends before.
-/
theorem exists_readsBack {kind : Kind} {value : String} {rest : List Char}
    (allows : kind.Allows value) (ends : kind.EndsBefore value rest) :
    ∃ first more, ReadsBack kind value rest first more := by
  have operator (only : kind.fixedText? = some value) (noKeyword : kind.isKeyword = false)
      (apart : ∀ char, value.toList = [char] → rest.head?.bind (doubleOperator? char) = none) :
      ∃ first more, ReadsBack kind value rest first more := by
    obtain ⟨word, rfl, _⟩ | ⟨first, single, found⟩ | ⟨first, second, double, found⟩ :=
      Kind.operator_cases only
    · cases noKeyword
    · exact ⟨first, [], readsBack_of_single only single found (apart first single)⟩
    · exact ⟨first, [second], readsBack_of_double only double found⟩
  cases kind with
  | illegal | endOfInput | comment => exact ends.elim
  | identifier =>
      obtain ⟨first, more, text, starts, continues, _⟩ := isPlainName_iff.1 allows
      exact ⟨first, more, readsBack_of_word text starts continues (wordKind_of_isPlainName allows)
        ends⟩
  | keyword word =>
      obtain rfl : word.word = value := Option.some.inj allows
      obtain ⟨first, more, text, starts, continues⟩ := word.word_cons
      exact ⟨first, more, readsBack_of_word text starts continues (wordKind_word word) ends⟩
  | number =>
      obtain ⟨⟨first, head, digit⟩, isNumber⟩ := allows
      obtain ⟨more, text⟩ := List.head?_eq_some_iff.1 head
      rw [text] at isNumber
      refine ⟨first, more, by rw [tokenText_eq_value _ (by simp) (by simp), text], ?_, ?_, ?_⟩
      · exact isBlank_eq_false isDigit digit (by decide)
      · rintro rfl
        exact absurd digit (by decide)
      · rw [Lexeme.read_number digit isNumber ends.1 ends.2, text]
  | string =>
      refine ⟨'\x22', escape '\x22' value.toList ++ ['\x22'], ?_, by decide, by decide, ?_⟩
      · simp [tokenText, stringLiteral]
      · rw [List.append_assoc, List.singleton_append, Lexeme.read_stringLiteral value ends,
          List.length_append]
        rfl
  | template =>
      refine ⟨'\x60', restoreDollars (escape '\x60' value.toList) ++ ['\x60'], ?_, by decide,
        by decide, ?_⟩
      · simp [tokenText, templateLiteral]
      · rw [List.append_assoc, List.singleton_append, Lexeme.read_templateLiteral value,
          List.length_append]
        rfl
  | _ => exact operator allows rfl ends

end AgentScript
