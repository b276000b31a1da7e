import AgentScript.Scan.Lexeme
import AgentScript.Tree.Text

/-!
Contract: how the kind of a token limits its text.

Owns:
- the one text of every kind that has only one: operators, brackets, separators and keywords;
- well-spelled tokens, whose text is one that their kind allows;
- the agreement of the operator look-up with those texts.
-/

set_option autoImplicit false

namespace AgentScript

/-- The text of the kinds whose tokens all have the same one. -/
def Kind.fixedText? : Kind → Option String
  | openBracket => some "["
  | closeBracket => some "]"
  | openCurly => some "\x7b"
  | closeCurly => some "\x7d"
  | openParen => some "("
  | closeParen => some ")"
  | assign => some "="
  | equals => some "=="
  | not => some "!"
  | notEquals => some "!="
  | less => some "<"
  | lessEquals => some "<="
  | greater => some ">"
  | greaterEquals => some ">="
  | or => some "||"
  | and => some "&&"
  | nullish => some "??"
  | pipe => some "|"
  | dot => some "."
  | semicolon => some ";"
  | colon => some ":"
  | comma => some ","
  | plus => some "+"
  | dash => some "-"
  | slash => some "/"
  | star => some "*"
  | percent => some "%"
  | keyword word => some word.word
  | illegal | endOfInput | comment | identifier | number | string | template => none

/-- Whether a text is one number and nothing else. -/
def IsNumberText (text : List Char) : Prop :=
  (∃ first ∈ text.head?, isDigit first = true) ∧ numberText text = text

/-- A number that is one number and nothing else has a value. -/
theorem Decimal.ofText?_isSome {text : List Char} (isNumber : IsNumberText text) :
    ∃ value, Decimal.ofText? text = some value := by
  obtain ⟨⟨first, isFirst, digit⟩, whole⟩ := isNumber
  obtain ⟨rest, rfl⟩ := List.head?_eq_some_iff.1 isFirst
  have digits : ((first :: rest).takeWhile isDigit).isEmpty = false := by
    rw [List.takeWhile_cons_of_pos digit]
    rfl
  unfold Decimal.ofText?
  rw [if_neg]
  · exact ⟨_, rfl⟩
  · rw [digits, Bool.false_or, decide_eq_true_eq, Classical.not_not]
    exact whole

/-- The texts that a token of a kind may have. -/
def Kind.Allows (kind : Kind) (text : String) : Prop :=
  match kind with
  | .identifier => isPlainName text = true
  | .number => IsNumberText text.toList
  | .string | .template | .illegal | .comment | .endOfInput => True
  | kind => kind.fixedText? = some text

/-- The text of the token is one that its kind allows. -/
def Token.WellSpelled (token : Token) : Prop := token.kind.Allows token.value

theorem Kind.Allows.eq_of_fixedText? {kind : Kind} {text fixed : String}
    (allows : kind.Allows text) (only : kind.fixedText? = some fixed) : text = fixed := by
  cases kind <;> simp_all [Kind.Allows, Kind.fixedText?]

/-! ## The operators -/

private theorem of_ite_some {α : Type} {condition : Prop} [Decidable condition] {here found : α}
    {otherwise : Option α} (result : (if condition then some here else otherwise) = some found) :
    (condition ∧ here = found) ∨ otherwise = some found := by
  split at result
  · next holds => exact .inl ⟨holds, Option.some.inj result⟩
  · exact .inr result

theorem fixedText?_of_doubleOperator? {first second : Char} {kind : Kind}
    (found : doubleOperator? first second = some kind) :
    kind.fixedText? = some (String.ofList [first, second]) := by
  simp only [doubleOperator?, Bool.and_eq_true, decide_eq_true_eq] at found
  repeat
    obtain ⟨⟨rfl, rfl⟩, rfl⟩ | found := of_ite_some found
    · rfl
  cases found

theorem fixedText?_of_singleOperator? {char : Char} {kind : Kind}
    (found : singleOperator? char = some kind) :
    kind.fixedText? = some (String.ofList [char]) := by
  simp only [singleOperator?] at found
  repeat
    obtain ⟨rfl, rfl⟩ | found := of_ite_some found
    · rfl
  cases found

end AgentScript
