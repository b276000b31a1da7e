import AgentScript.Proofs.Token.Balanced
import AgentScript.Proofs.Tree.Legible

/-!
Contract: words of openers, and the text and the tree of what they nest.

Owns:
- the openers, each of which nests the expression after it by one level;
- the script that nests a number in a word of openers, and the tree of the number nested so;
- the tokens of such a nest, their places and the line they stand on.
-/

set_option autoImplicit false

namespace AgentScript

/-- What nests the expression after it: an opening bracket or a unary operator. -/
inductive Opener where
  | paren
  | bracket
  | not
  | dash
deriving DecidableEq, Repr

namespace Opener

def kind : Opener → Kind
  | paren => .openParen
  | bracket => .openBracket
  | not => .not
  | dash => .dash

def text : Opener → String
  | paren => "("
  | bracket => "["
  | not => "!"
  | dash => "-"

/-- The bracket that closes what an opener opens. A unary operator opens nothing. -/
def closingText : Opener → String
  | paren => ")"
  | bracket => "]"
  | not | dash => ""

/-- The tokens of the closing text. -/
def closing : Opener → List Printed
  | paren => [.closeParen]
  | bracket => [.closeBracket]
  | not | dash => []

/-- The tree of an expression in the nest of an opener. Parentheses leave no trace. -/
def wrap (opener : Opener) (token : Token) (inside : Expr) : Expr :=
  match opener with
  | paren => inside
  | bracket => .array token [inside]
  | not | dash => .unary token inside

end Opener

/-- A script of two lines: an assignment of a number nested in a word of openers, and another
assignment. -/
def nestingText (word : List Opener) : String :=
  "x = " ++ joined "" (word.map Opener.text) ++ "1" ++
    joined "" (word.reverse.map Opener.closingText) ++ "\ny = 2"

/-- The tree of the number one, nested in a word of openers that starts at a column of the first
line. -/
def nestedTree (column : Nat) : List Opener → Expr
  | [] => .number ⟨.number, "1", ⟨1, column⟩⟩ ⟨1, 0⟩
  | opener :: word =>
      opener.wrap ⟨opener.kind, opener.text, ⟨1, column⟩⟩ (nestedTree (column + 1) word)

/-- The tokens of the number one, nested in a word of openers. -/
def nestedPrinted : List Opener → Gap → List Printed
  | [], gap => [⟨gap, .number, "1"⟩]
  | opener :: word, gap =>
      ⟨gap, opener.kind, opener.text⟩ :: (nestedPrinted word .none ++ opener.closing)

theorem toList_joined (texts : List String) :
    (joined "" texts).toList = texts.flatMap String.toList := by
  induction texts with
  | nil => rfl
  | cons text texts inductionHypothesis =>
      cases texts with
      | nil => simp [joined]
      | cons next texts => simp [joined, inductionHypothesis]

/-! ## The text of a nest -/

theorem Opener.printedText_closing (opener : Opener) :
    printedText opener.closing = opener.closingText.toList := by
  cases opener <;> decide

theorem printedText_nestedPrinted (word : List Opener) (gap : Gap) :
    printedText (nestedPrinted word gap) =
      gap.text ++ ((joined "" (word.map Opener.text)).toList ++ '1' ::
        (joined "" (word.reverse.map Opener.closingText)).toList) := by
  induction word generalizing gap with
  | nil => simp [nestedPrinted, printedText, Printed.text, tokenText, joined]
  | cons opener word inductionHypothesis =>
      have written : tokenText opener.kind opener.text = opener.text.toList := by
        cases opener <;> rfl
      simp only [toList_joined] at inductionHypothesis ⊢
      simp [nestedPrinted, printedText_cons, printedText_append, inductionHypothesis, written,
        Opener.printedText_closing, Gap.text]

/-- The characters that a nest can start with. -/
def nestStarts : List Char := ['(', '[', '!', '-', '1']

theorem Opener.exists_char (opener : Opener) :
    ∃ char ∈ nestStarts, opener.text.toList = [char] := by
  cases opener <;> exact ⟨_, by decide, rfl⟩

theorem head_nestedPrinted (word : List Opener) :
    ∃ first more, printedText (nestedPrinted word .none) = first :: more ∧ first ∈ nestStarts := by
  rw [printedText_nestedPrinted]
  cases word with
  | nil => exact ⟨'1', _, rfl, by decide⟩
  | cons opener word =>
      rw [toList_joined, List.map_cons, List.flatMap_cons]
      cases opener <;> exact ⟨_, _, rfl, by decide⟩

theorem separates_closing (opener : Opener) {rest : List Char} (separates : Separates rest) :
    Separates (printedText opener.closing ++ rest) := by
  cases opener with
  | paren | bracket => exact separates_cons (by decide) (by decide)
  | not | dash => exact separates

/-- The tokens of a nest are legible before whatever separates. -/
theorem legible_nestedPrinted (word : List Opener) (gap : Gap) {rest : List Char}
    (separates : Separates rest) : Legible (nestedPrinted word gap) rest := by
  induction word generalizing gap rest with
  | nil =>
      have allows : Kind.number.Allows "1" := ⟨⟨'1', rfl, by decide⟩, by decide⟩
      rw [nestedPrinted, legible_cons]
      exact ⟨⟨allows, separates.endsBefore allows (by simp)⟩, trivial⟩
  | cons opener word inductionHypothesis =>
      rw [nestedPrinted, legible_cons, legible_append]
      refine ⟨⟨?_, ?_⟩, inductionHypothesis .none (separates_closing opener separates), ?_⟩
      · cases opener <;> rfl
      · obtain ⟨first, more, starts, member⟩ := head_nestedPrinted word
        have apart : ∀ first ∈ nestStarts, ∀ char ∈ nestStarts,
            doubleOperator? char first = none := by simp [nestStarts, doubleOperator?]
        obtain ⟨char, isStart, written⟩ := opener.exists_char
        have stops : ∀ other, opener.text.toList = [other] →
            (first :: more ++ printedText opener.closing ++ rest).head?.bind
              (doubleOperator? other) = none := by
          intro other isChar
          rw [written] at isChar
          obtain rfl := (List.cons.inj isChar).1
          exact apart first member char isStart
        rw [printedText_append, starts]
        cases opener <;> exact stops
      · cases opener with
        | paren | bracket =>
            refine ⟨⟨rfl, ?_⟩, trivial⟩
            exact separates.endsBefore rfl (by decide)
        | not | dash => trivial

/-! ## The tokens of a nest -/

/-- Tokens that nest a number in a word of openers, and the tree they stand for. -/
inductive Nests : List Opener → List Token → Expr → Prop where
  | number {token : Token} {value : Decimal} :
      token.kind = .number → Decimal.ofText? token.value.toList = some value →
      Nests [] [token] (.number token value)
  | cons {opener : Opener} {word : List Opener} {opening : Token} {inside closing : List Token}
      {tree : Expr} :
      opening.kind = opener.kind → closing.map Token.kind = opener.closing.map Printed.kind →
      Nests word inside tree →
      Nests (opener :: word) (opening :: (inside ++ closing)) (opener.wrap opening tree)

theorem laid_append (position : Position) (left right : List Printed) :
    laid position (left ++ right) =
      laid position left ++ laid (position.afterText (printedText left)) right := by
  induction left generalizing position with
  | nil => rfl
  | cons printed left inductionHypothesis =>
      simp only [List.cons_append, laid, inductionHypothesis, printedText_cons,
        Position.afterText_append]

theorem laid_map_kind (position : Position) (tokens : List Printed) :
    (laid position tokens).map (fun lexed => lexed.token.kind) = tokens.map Printed.kind := by
  induction tokens generalizing position with
  | nil => rfl
  | cons printed tokens inductionHypothesis => simp [laid, inductionHypothesis]

theorem Opener.afterText_text (opener : Opener) (column : Nat) :
    Position.afterText ⟨1, column⟩ (tokenText opener.kind opener.text) = ⟨1, column + 1⟩ := by
  cases opener <;> rfl

theorem Opener.afterText_closing (opener : Opener) (column : Nat) :
    ∃ after, Position.afterText ⟨1, column⟩ (printedText opener.closing) = ⟨1, after⟩ := by
  cases opener <;> exact ⟨_, rfl⟩

/-- A nest does not leave its line. -/
theorem afterText_nestedPrinted (word : List Opener) (column : Nat) :
    ∃ after, Position.afterText ⟨1, column⟩ (printedText (nestedPrinted word .none)) =
      ⟨1, after⟩ := by
  induction word generalizing column with
  | nil => exact ⟨column + 1, rfl⟩
  | cons opener word inductionHypothesis =>
      obtain ⟨inside, here⟩ := inductionHypothesis (column + 1)
      rw [nestedPrinted, printedText_cons, printedText_append]
      simp only [Gap.text, List.nil_append, Position.afterText_append, Opener.afterText_text, here]
      exact opener.afterText_closing inside

/-- The tokens of a nest at a column of the first line: the opening one, those inside, a column
further on, and the closing one. -/
theorem laid_nestedPrinted_cons (opener : Opener) (word : List Opener) (column : Nat) :
    ∃ after, laid ⟨1, column⟩ (nestedPrinted (opener :: word) .none) =
      ⟨⟨opener.kind, opener.text, ⟨1, column⟩⟩, 1, none⟩ ::
        (laid ⟨1, column + 1⟩ (nestedPrinted word .none) ++ laid ⟨1, after⟩ opener.closing) := by
  obtain ⟨after, inside⟩ := afterText_nestedPrinted word (column + 1)
  refine ⟨after, ?_⟩
  rw [nestedPrinted, laid]
  simp only [Gap.text, Position.afterText_nil, Opener.afterText_text, laid_append, inside]

theorem nests_laid (word : List Opener) (column : Nat) :
    Nests word ((laid ⟨1, column⟩ (nestedPrinted word .none)).map Lexed.token)
      (nestedTree column word) := by
  induction word generalizing column with
  | nil =>
      have value : Decimal.ofText? "1".toList = some ⟨1, 0⟩ := by decide
      exact .number rfl value
  | cons opener word inductionHypothesis =>
      obtain ⟨after, split⟩ := laid_nestedPrinted_cons opener word column
      rw [split, List.map_cons, List.map_append]
      refine .cons rfl ?_ (inductionHypothesis (column + 1))
      rw [List.map_map]
      exact laid_map_kind ⟨1, after⟩ opener.closing

/-- The openers of a nest stand side by side, and the number after them. -/
theorem position_laid_nestedPrinted (word : List Opener) (column : Nat) {index : Nat}
    (within : index ≤ word.length) :
    ∃ lexed, (laid ⟨1, column⟩ (nestedPrinted word .none))[index]? = some lexed ∧
      lexed.token.position = ⟨1, column + index⟩ := by
  induction word generalizing column index with
  | nil =>
      obtain rfl := Nat.le_zero.1 within
      exact ⟨_, rfl, rfl⟩
  | cons opener word inductionHypothesis =>
      obtain ⟨after, split⟩ := laid_nestedPrinted_cons opener word column
      rw [split]
      cases index with
      | zero => exact ⟨_, rfl, rfl⟩
      | succ index =>
          obtain ⟨lexed, found, place⟩ :=
            inductionHypothesis (column + 1) (Nat.le_of_succ_le_succ within)
          refine ⟨lexed, ?_, by rw [place, Nat.add_right_comm, Nat.add_assoc]⟩
          rw [List.getElem?_cons_succ, List.getElem?_append_left, found]
          exact (List.getElem?_eq_some_iff.1 found).1

namespace Nests

variable {word : List Opener} {tokens : List Token} {tree : Expr}

/-- A nest starts with a token of an opener or a number. -/
theorem length_lt (nests : Nests word tokens tree) : word.length < tokens.length := by
  induction nests with
  | number => exact Nat.zero_lt_one
  | cons _ _ _ inductionHypothesis =>
      rw [List.length_cons, List.length_cons, List.length_append]
      omega

/-- The brackets of a nest answer one another. -/
theorem balanced (nests : Nests word tokens tree) : Balanced tokens := by
  induction nests with
  | number kind => exact .singleton (by rw [kind]; rfl)
  | @cons opener _ opening inside closing _ openingKind closingKind _ balanced =>
      cases opener with
      | paren | bracket =>
          obtain ⟨bracket, rfl⟩ : ∃ bracket, closing = [bracket] := by
            simpa [Opener.closing, List.length_eq_one_iff] using congrArg List.length closingKind
          have bracketKind := (List.cons.inj closingKind).1
          exact .enclosed (by rw [openingKind]; rfl) (by rw [openingKind, bracketKind]; rfl) balanced
      | not | dash =>
          obtain rfl : closing = [] := List.map_eq_nil_iff.1 closingKind
          rw [List.append_nil]
          exact .plain (by rw [openingKind]; rfl) balanced

end Nests

/-! ## The script -/

/-- The second line of the script. -/
def secondLinePrinted : List Printed :=
  [⟨.line 0, .identifier, "y"⟩, ⟨.space, .assign, "="⟩, ⟨.space, .number, "2"⟩]

/-- The tokens of the script. -/
def nestingPrinted (word : List Opener) : List Printed :=
  ⟨.top, .identifier, "x"⟩ :: ⟨.space, .assign, "="⟩ ::
    (nestedPrinted word .space ++ secondLinePrinted)

theorem printedText_nestingPrinted (word : List Opener) :
    printedText (nestingPrinted word) = (nestingText word).toList := by
  have second : printedText secondLinePrinted = "\ny = 2".toList := by decide
  rw [nestingPrinted, printedText_cons, printedText_cons, printedText_append,
    printedText_nestedPrinted, second]
  simp [nestingText, tokenText, Gap.text]

/-- An assignment of a name is legible up to its sign, before a space. -/
theorem legible_assignment {gap : Gap} {name : String} {tokens : List Printed}
    (plain : isPlainName name = true) (spaced : ∃ more, printedText tokens = ' ' :: more)
    (legible : Legible tokens []) :
    Legible (⟨gap, .identifier, name⟩ :: ⟨.space, .assign, "="⟩ :: tokens) [] := by
  obtain ⟨more, spaced⟩ := spaced
  have space (text : List Char) : Separates (' ' :: text) := separates_cons (by decide) (by decide)
  rw [legible_cons, legible_cons, List.append_nil, List.append_nil, spaced]
  have sign : Kind.assign.Allows "=" := rfl
  exact ⟨⟨plain, (space _).endsBefore plain (by simp)⟩,
    ⟨sign, (space more).endsBefore sign (by decide)⟩, legible⟩

theorem legible_nestingPrinted (word : List Opener) : Legible (nestingPrinted word) [] := by
  have number : Kind.number.Allows "2" := ⟨⟨'2', rfl, by decide⟩, by decide⟩
  have second : Legible secondLinePrinted [] := by
    refine legible_assignment (by decide +kernel) ⟨_, rfl⟩ ?_
    rw [legible_cons]
    exact ⟨⟨number, separates_nil.endsBefore number (by simp)⟩, trivial⟩
  have newLine : Separates (printedText secondLinePrinted ++ []) :=
    separates_cons (by decide) (by decide)
  refine legible_assignment (by decide +kernel) ?_ ?_
  · rw [printedText_append, printedText_nestedPrinted]
    exact ⟨_, rfl⟩
  · rw [legible_append]
    exact ⟨legible_nestedPrinted word .space newLine, second⟩

/-- The first line of the script. -/
def nestingLine (word : List Opener) : List Lexed :=
  ⟨⟨.identifier, "x", ⟨1, 1⟩⟩, 1, none⟩ :: ⟨⟨.assign, "=", ⟨1, 3⟩⟩, 1, none⟩ ::
    laid ⟨1, 5⟩ (nestedPrinted word .none)

/-- The second line of the script. -/
def secondLine : List Lexed :=
  [⟨⟨.identifier, "y", ⟨2, 1⟩⟩, 2, none⟩, ⟨⟨.assign, "=", ⟨2, 3⟩⟩, 2, none⟩,
    ⟨⟨.number, "2", ⟨2, 5⟩⟩, 2, none⟩]

theorem laid_nestedPrinted_space (word : List Opener) :
    laid ⟨1, 4⟩ (nestedPrinted word .space) = laid ⟨1, 5⟩ (nestedPrinted word .none) := by
  cases word <;> rfl

theorem afterText_nestedPrinted_space (word : List Opener) :
    Position.afterText ⟨1, 4⟩ (printedText (nestedPrinted word .space)) =
      Position.afterText ⟨1, 5⟩ (printedText (nestedPrinted word .none)) := by
  rw [printedText_nestedPrinted, printedText_nestedPrinted]
  rfl

theorem scan_nestingText (word : List Opener) :
    (Cursor.ofSource (nestingText word)).scan =
      ⟨nestingLine word ++ secondLine, ⟨⟨.endOfInput, "", ⟨2, 6⟩⟩, 2, none⟩⟩ := by
  obtain ⟨after, inside⟩ := afterText_nestedPrinted word 5
  have tokens : laid .start (nestingPrinted word) = nestingLine word ++ secondLine := by
    change _ :: _ :: laid ⟨1, 4⟩ (nestedPrinted word .space ++ secondLinePrinted) = _
    rw [laid_append, laid_nestedPrinted_space, afterText_nestedPrinted_space, inside]
    rfl
  have place : Position.start.afterText (printedText (nestingPrinted word)) = ⟨2, 6⟩ := by
    change Position.afterText ⟨1, 4⟩ (printedText (nestedPrinted word .space ++ secondLinePrinted)) = _
    rw [printedText_append, Position.afterText_append, afterText_nestedPrinted_space, inside]
    rfl
  have scan := Cursor.scan_printedText (legible_nestingPrinted word)
  rw [tokens, place, printedText_nestingPrinted] at scan
  exact scan

end AgentScript
