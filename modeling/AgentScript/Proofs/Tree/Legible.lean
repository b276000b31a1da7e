import AgentScript.Proofs.Scan.Printed
import AgentScript.Proofs.Token.Forms

/-!
Contract: the printed tokens of a well-formed tree are legible.

Owns:
- printed tokens that are well spelled, and those that separate what stands before them;
- this statement for types, expressions, statements and programs, before any text that separates.
-/

set_option autoImplicit false

namespace AgentScript

namespace Printed

/-- A printed token that a scan can give: well spelled, and not the end of input. -/
structure Sound (printed : Printed) : Prop where
  allows : printed.kind.Allows printed.value
  isToken : printed.kind ≠ .illegal ∧ printed.kind ≠ .endOfInput ∧ printed.kind ≠ .comment

theorem sound_of_fixedText? {printed : Printed}
    (only : printed.kind.fixedText? = some printed.value) : printed.Sound where
  allows := Lexeme.allows_of_fixedText? only
  isToken := by
    refine ⟨?_, ?_, ?_⟩ <;>
      · intro kind
        rw [kind] at only
        cases only

theorem sound_openParen (gap : Gap) : (openParen gap).Sound := sound_of_fixedText? rfl

theorem sound_closeParen : closeParen.Sound := sound_of_fixedText? rfl

theorem sound_openBracket (gap : Gap) : (openBracket gap).Sound := sound_of_fixedText? rfl

theorem sound_closeBracket : closeBracket.Sound := sound_of_fixedText? rfl

theorem sound_colon : colon.Sound := sound_of_fixedText? rfl

theorem sound_keyword (gap : Gap) (word : Keyword) : (keyword gap word).Sound :=
  sound_of_fixedText? rfl

theorem sound_name {token : Token} (isName : token.Is .identifier) (gap : Gap) :
    (name gap token).Sound where
  allows := by
    have spelled := isName.2
    rwa [Token.WellSpelled, isName.1] at spelled
  isToken := by simp [name]

theorem sound_operator {token : Token} (spelled : token.WellSpelled)
    (isToken : token.kind ≠ .illegal ∧ token.kind ≠ .endOfInput ∧ token.kind ≠ .comment)
    (gap : Gap) : (operator gap token).Sound :=
  ⟨spelled, isToken⟩

/-- The kind that is read for a word is the one that allows it. -/
theorem wordKind_of_allows {kind : Kind} {value : String} (names : kind.namesMember = true)
    (allows : kind.Allows value) : wordKind value.toList = kind := by
  simp only [Kind.namesMember, Bool.or_eq_true, decide_eq_true_eq] at names
  rcases names with rfl | isKeyword
  · exact wordKind_of_isPlainName allows
  · cases kind with
    | keyword word =>
        obtain rfl : word.word = value := Option.some.inj allows
        exact wordKind_word word
    | _ => cases isKeyword

theorem isToken_of_namesMember {kind : Kind} (names : kind.namesMember = true) :
    kind ≠ .illegal ∧ kind ≠ .endOfInput ∧ kind ≠ .comment := by
  refine ⟨?_, ?_, ?_⟩ <;>
    · rintro rfl
      exact absurd names (by decide)

theorem sound_word {value : String} (isName : IsMemberName value) (gap : Gap) :
    (word gap value).Sound := by
  obtain ⟨kind, names, allows⟩ := isName
  have kind_eq := wordKind_of_allows names allows
  exact ⟨by rwa [word, kind_eq], by rw [word, kind_eq]; exact isToken_of_namesMember names⟩

theorem sound_key (gap : Gap) (value : String) : (key gap value).Sound := by
  unfold key
  split
  · next plain => exact ⟨plain, by simp⟩
  · exact ⟨trivial, by simp⟩

/-- The brackets and signs that separate what stands before them, also without a gap. -/
def isSeparator : Kind → Bool
  | .closeParen | .closeBracket | .closeCurly | .comma | .colon | .openParen | .openBracket => true
  | _ => false

/-- Whether a printed token separates what stands before it from itself. -/
def separates (printed : Printed) : Bool :=
  match printed.gap with
  | .space | .line _ => true
  | .none | .top => isSeparator printed.kind

/-- The text of a printed token that separates starts with a separator. -/
theorem separates_text {printed : Printed} (sound : printed.Sound)
    (separates : printed.separates = true) (following : List Printed) (rest : List Char) :
    Separates (printedText (printed :: following) ++ rest) := by
  obtain ⟨gap, kind, value⟩ := printed
  have bracket (isSeparator : isSeparator kind = true) :
      Separates (tokenText kind value ++ (printedText following ++ rest)) := by
    have single (text : String) (first : Char) (only : kind.fixedText? = some text)
        (starts : text.toList = [first]) (member : first ∈ separatorChars)
        (noPoint : first ≠ '.') :
        Separates (tokenText kind value ++ (printedText following ++ rest)) := by
      obtain rfl := sound.allows.eq_of_fixedText? only
      rw [tokenText_of_fixedText? only, starts]
      exact separates_cons member noPoint
    cases kind <;> cases isSeparator <;> exact single _ _ rfl rfl (by decide) (by decide)
  rw [printedText_cons, List.append_assoc, List.append_assoc]
  cases gap with
  | none => exact bracket separates
  | top => exact bracket separates
  | space => exact separates_cons (by decide) (by decide)
  | line depth => exact separates_cons (by decide) (by decide)

end Printed

open Printed

section

variable {printed : Printed} {following : List Printed} {rest : List Char}

/-- A token before a text that separates. -/
theorem Legible.cons (sound : printed.Sound)
    (separates : Separates (printedText following ++ rest)) (legible : Legible following rest) :
    Legible (printed :: following) rest :=
  ⟨⟨sound.allows, separates.endsBefore sound.allows sound.isToken⟩, legible⟩

/-- The tokens that end before any text. -/
def Kind.isOpen : Kind → Bool
  | .openParen | .openBracket | .openCurly | .dot | .dash => true
  | _ => false

theorem Legible.cons_open (sound : printed.Sound) (isOpen : printed.kind.isOpen = true)
    (legible : Legible following rest) : Legible (printed :: following) rest := by
  refine ⟨⟨sound.allows, ?_⟩, legible⟩
  obtain ⟨gap, kind, value⟩ := printed
  have single (text : String) (first : Char) (only : kind.fixedText? = some text)
      (starts : text.toList = [first])
      (apart : ∀ second, doubleOperator? first second = none) :
      ∀ char, value.toList = [char] →
        (printedText following ++ rest).head?.bind (doubleOperator? char) = none := by
    obtain rfl := sound.allows.eq_of_fixedText? only
    intro char same
    rw [starts] at same
    cases same
    cases (printedText following ++ rest).head? with
    | none => rfl
    | some second => exact apart second
  cases kind <;> cases isOpen
  · exact single "[" '[' rfl rfl fun _ => by simp [doubleOperator?]
  · exact single "\x7b" '\x7b' rfl rfl fun _ => by simp [doubleOperator?]
  · exact single "(" '(' rfl rfl fun _ => by simp [doubleOperator?]
  · exact single "." '.' rfl rfl fun _ => by simp [doubleOperator?]
  · exact single "-" '-' rfl rfl fun _ => by simp [doubleOperator?]

/-- What separates before any text does so with more tokens after it. -/
theorem separates_append {tokens : List Printed}
    (separates : ∀ rest, Separates (printedText tokens ++ rest)) (following : List Printed)
    (rest : List Char) : Separates (printedText (tokens ++ following) ++ rest) := by
  rw [printedText_append, List.append_assoc]
  exact separates _

theorem legible_singleton (sound : printed.Sound) (separates : Separates rest) :
    Legible [printed] rest :=
  .cons sound separates (legible_nil rest)

/-- Pieces with commas between them are legible if each piece is. -/
theorem legible_separated {α : Type} (items : List α) (piece : α → Gap → List Printed)
    (each : ∀ item ∈ items, ∀ (gap : Gap) (rest : List Char), Separates rest →
      Legible (piece item gap) rest)
    (starts : ∀ item ∈ items, ∀ rest, Separates (printedText (piece item .space) ++ rest))
    (gap : Gap) {rest : List Char} (separates : Separates rest) :
    Legible (separated gap (items.map piece)) rest := by
  have comma : (⟨.none, .comma, ","⟩ : Printed).Sound := sound_of_fixedText? rfl
  have further : ∀ items : List α,
      (∀ item ∈ items, ∀ (gap : Gap) (rest : List Char), Separates rest →
        Legible (piece item gap) rest) →
      (∀ item ∈ items, ∀ rest, Separates (printedText (piece item .space) ++ rest)) →
      Separates (printedText ((items.map piece).flatMap
          fun piece => ⟨.none, .comma, ","⟩ :: piece .space) ++ rest) ∧
        Legible ((items.map piece).flatMap fun piece => ⟨.none, .comma, ","⟩ :: piece .space)
          rest := by
    intro items each starts
    induction items with
    | nil => exact ⟨separates, trivial⟩
    | cons item items inductionHypothesis =>
        obtain ⟨separatesRest, legibleRest⟩ :=
          inductionHypothesis (fun item member => each item (List.mem_cons_of_mem _ member))
            fun item member => starts item (List.mem_cons_of_mem _ member)
        have legibleItem := each item List.mem_cons_self .space _ separatesRest
        rw [List.map_cons, List.flatMap_cons, List.cons_append]
        refine ⟨separates_text comma rfl _ _, .cons comma ?_ ?_⟩
        · exact separates_append (starts item List.mem_cons_self) _ rest
        · exact (legible_append _ _ _).2 ⟨legibleItem, legibleRest⟩
  cases items with
  | nil => trivial
  | cons item items =>
      obtain ⟨separatesRest, legibleRest⟩ :=
        further items (fun item member => each item (List.mem_cons_of_mem _ member))
          fun item member => starts item (List.mem_cons_of_mem _ member)
      exact (legible_append _ _ _).2
        ⟨each item List.mem_cons_self gap _ separatesRest, legibleRest⟩

end

/-! ## Types and expressions -/

theorem Kind.namesMember_of_namesType {kind : Kind} (names : kind.namesType = true) :
    kind.namesMember = true := by
  cases kind with
  | identifier => rfl
  | keyword word => rfl
  | _ => cases names

theorem TypeExpr.WellFormed.legible {type : TypeExpr} (wellFormed : type.WellFormed) (gap : Gap)
    {rest : List Char} (separates : Separates rest) : Legible (type.printed gap) rest := by
  induction type generalizing rest with
  | named name =>
      obtain ⟨kind, names, allows⟩ := wellFormed
      have sound := sound_word ⟨kind, Kind.namesMember_of_namesType names, allows⟩ gap
      exact legible_singleton sound separates
  | array element inductionHypothesis =>
      have closing := legible_singleton sound_closeBracket separates
      exact (legible_append _ _ _).2
        ⟨inductionHypothesis wellFormed (separates_text (sound_openBracket .none) rfl _ _),
          .cons_open (sound_openBracket .none) rfl closing⟩

theorem Expr.WellFormed.separates {expr : Expr} (wellFormed : expr.WellFormed)
    (rest : List Char) : Separates (printedText (expr.printed .space) ++ rest) := by
  rw [wellFormed.printedText_eq]
  exact separates_cons (by decide) (by decide)

theorem isToken_of_operandForm? {kind : Kind} {form : OperandForm}
    (starts : kind.operandForm? = some form) :
    kind ≠ .illegal ∧ kind ≠ .endOfInput ∧ kind ≠ .comment := by
  refine ⟨?_, ?_, ?_⟩ <;>
    · rintro rfl
      cases starts

theorem isToken_of_infixForm? {kind : Kind} {form : InfixForm}
    (continues : kind.infixForm? = some form) :
    kind ≠ .illegal ∧ kind ≠ .endOfInput ∧ kind ≠ .comment := by
  refine ⟨?_, ?_, ?_⟩ <;>
    · rintro rfl
      cases continues

/-- The first printed token of an expression, which the expression cannot be told apart without. -/
theorem Expr.WellFormed.exists_first {expr : Expr} (wellFormed : expr.WellFormed) (gap : Gap) :
    ∃ kind value following, expr.printed gap = ⟨gap, kind, value⟩ :: following ∧
      kind.Allows value ∧ kind.operandForm?.isSome = true ∧ kind ≠ .dash := by
  induction wellFormed with
  | identifier isName _ => exact ⟨_, _, _, rfl, (sound_name isName gap).allows, by decide⟩
  | @number token _ isNumber _ =>
      exact ⟨_, _, _, rfl, isNumber.2, by rw [isNumber.1]; decide⟩
  | string isString => exact ⟨_, _, _, rfl, isString.2, by rw [isString.1]; decide⟩
  | template isTemplate => exact ⟨_, _, _, rfl, isTemplate.2, by rw [isTemplate.1]; decide⟩
  | @boolean token value isName text =>
      exact ⟨_, _, _, rfl, text ▸ (sound_name isName gap).allows, by decide⟩
  | null isName text => exact ⟨_, _, _, rfl, text ▸ (sound_name isName gap).allows, by decide⟩
  | binary => exact ⟨_, _, _, rfl, (sound_openParen gap).allows, by decide⟩
  | unary => exact ⟨_, _, _, rfl, (sound_openParen gap).allows, by decide⟩
  | pipe => exact ⟨_, _, _, rfl, (sound_openParen gap).allows, by decide⟩
  | call _ _ _ first =>
      obtain ⟨kind, value, following, printed, allows, starts⟩ := first
      exact ⟨kind, value, _, by rw [Expr.printed, printed]; rfl, allows, starts⟩
  | member _ _ _ _ first =>
      obtain ⟨kind, value, following, printed, allows, starts⟩ := first
      exact ⟨kind, value, _, by rw [Expr.printed, printed]; rfl, allows, starts⟩
  | index => exact ⟨_, _, _, rfl, (sound_openParen gap).allows, by decide⟩
  | array => exact ⟨_, _, _, rfl, (sound_openBracket gap).allows, by decide⟩
  | object => exact ⟨_, _, _, rfl, rfl, by decide⟩

/-- No operand starts with the sign that an exclamation mark would go on with. -/
theorem head?_tokenText_ne {kind : Kind} {value : String} (allows : kind.Allows value)
    (starts : kind.operandForm?.isSome = true) (rest : List Char) :
    (tokenText kind value ++ rest).head? ≠ some '=' := by
  cases kind with
  | identifier =>
      obtain ⟨first, more, text, startsWord, _⟩ := isPlainName_iff.1 allows
      rw [tokenText_eq_value _ (by simp) (by simp), text]
      rintro ⟨⟩
      exact absurd startsWord (by decide +kernel)
  | number =>
      obtain ⟨⟨first, head, digit⟩, _⟩ := allows
      obtain ⟨more, text⟩ := List.head?_eq_some_iff.1 head
      rw [tokenText_eq_value _ (by simp) (by simp), text]
      rintro ⟨⟩
      exact absurd digit (by decide)
  | string => simp [tokenText, stringLiteral]
  | template => simp [tokenText, templateLiteral]
  | not | dash | openParen | openBracket | openCurly =>
      cases allows
      simp
  | _ => cases starts

/-- A sign before an operand ends before any text that no equals sign starts. -/
theorem endsBefore_of_unary {operator : Token} {rest : List Char}
    (form : operator.kind.operandForm? = some .unary) (spelled : operator.WellSpelled)
    (noEquals : rest.head? ≠ some '=') : operator.kind.EndsBefore operator.value rest := by
  obtain ⟨kind, value, position⟩ := operator
  have single (text : String) (first : Char) (only : kind.fixedText? = some text)
      (starts : text.toList = [first])
      (apart : ∀ second, second ≠ '=' → doubleOperator? first second = none) :
      ∀ char, value.toList = [char] → rest.head?.bind (doubleOperator? char) = none := by
    obtain rfl : value = text := Kind.Allows.eq_of_fixedText? spelled only
    intro char same
    rw [starts] at same
    cases same
    cases head : rest.head? with
    | none => rfl
    | some second =>
        refine apart second ?_
        rintro rfl
        exact noEquals head
  cases kind <;> cases form
  · exact single "!" '!' rfl rfl fun second other => by simp [doubleOperator?, other]
  · exact single "-" '-' rfl rfl fun second _ => by simp [doubleOperator?]

theorem separates_member {property : Token} (names : property.kind.namesMember = true)
    (spelled : property.WellSpelled) (following : List Printed) (rest : List Char) :
    Separates (printedText (⟨.none, .dot, "."⟩ :: operator .none property :: following) ++ rest) := by
  have starts : ∃ first more, property.value.toList = first :: more ∧ startsWord first = true := by
    simp only [Kind.namesMember, Bool.or_eq_true, decide_eq_true_eq] at names
    rw [Token.WellSpelled] at spelled
    rcases names with isName | isKeyword
    · rw [isName] at spelled
      obtain ⟨first, more, text, starts, _⟩ := isPlainName_iff.1 spelled
      exact ⟨first, more, text, starts⟩
    · cases kind : property.kind with
      | keyword word =>
          rw [kind] at spelled
          obtain ⟨first, more, text, starts, _⟩ := word.word_cons
          exact ⟨first, more, by rw [← Option.some.inj spelled, text], starts⟩
      | _ =>
          rw [kind] at isKeyword
          cases isKeyword
  obtain ⟨first, more, text, startsWord⟩ := starts
  have written : printedText (⟨.none, .dot, "."⟩ :: operator .none property :: following) ++ rest =
      '.' :: first :: (more ++ (printedText following ++ rest)) := by
    simp [operator, tokenText_of_namesMember names, text]
  rw [written]
  rintro _ ⟨⟩
  refine ⟨by decide, ?_⟩
  rintro - _ ⟨⟩
  exact isDigit_of_startsWord startsWord

theorem entryPrinted_separates (entry : String × Expr) (rest : List Char) :
    Separates (printedText (entryPrinted entry .space) ++ rest) :=
  separates_text (sound_key .space entry.1) rfl _ _

/-- Two operands in parentheses, with a sign between them that separates. -/
theorem legible_infix {left right : Expr} {sign : Printed} (sound : sign.Sound)
    (apart : sign.separates = true) (rightFormed : right.WellFormed)
    (leftLegible : ∀ (gap : Gap) {rest : List Char}, Separates rest →
      Legible (left.printed gap) rest)
    (rightLegible : ∀ (gap : Gap) {rest : List Char}, Separates rest →
      Legible (right.printed gap) rest)
    (gap : Gap) {rest : List Char} (separates : Separates rest) :
    Legible (openParen gap :: left.printed .none ++ sign :: right.printed .space ++ [closeParen])
      rest := by
  have closing := legible_singleton sound_closeParen separates
  have afterSign := (legible_append _ _ _).2
    ⟨rightLegible .space (separates_text sound_closeParen rfl _ _), closing⟩
  have beforeRight := separates_append rightFormed.separates [closeParen] rest
  simp only [List.cons_append, List.append_assoc]
  exact .cons_open (sound_openParen gap) rfl ((legible_append _ _ _).2
    ⟨leftLegible .none (separates_text sound apart _ _), .cons sound beforeRight afterSign⟩)

/-- An expression is legible before any text that separates. -/
theorem Expr.WellFormed.legible {expr : Expr} (wellFormed : expr.WellFormed) (gap : Gap)
    {rest : List Char} (separates : Separates rest) : Legible (expr.printed gap) rest := by
  induction wellFormed generalizing gap rest with
  | identifier isName _ => exact legible_singleton (sound_name isName gap) separates
  | number isNumber _ =>
      exact legible_singleton (sound_operator isNumber.2 (by rw [isNumber.1]; simp) gap) separates
  | string isString =>
      exact legible_singleton (sound_operator isString.2 (by rw [isString.1]; simp) gap) separates
  | template isTemplate =>
      exact legible_singleton (sound_operator isTemplate.2 (by rw [isTemplate.1]; simp) gap)
        separates
  | boolean isName text =>
      exact legible_singleton ⟨text ▸ (sound_name isName gap).allows, by simp⟩ separates
  | null isName text =>
      exact legible_singleton ⟨text ▸ (sound_name isName gap).allows, by simp⟩ separates
  | binary form spelled _ rightFormed leftLegible rightLegible =>
      have sign := sound_operator spelled (isToken_of_infixForm? form) .space
      exact legible_infix sign rfl rightFormed leftLegible rightLegible gap separates
  | @unary operator operand form spelled operandFormed operandLegible =>
      have sign := sound_operator spelled (isToken_of_operandForm? form) .none
      have closing := legible_singleton sound_closeParen separates
      have afterSign := (legible_append _ _ _).2
        ⟨operandLegible .none (separates_text sound_closeParen rfl _ _), closing⟩
      obtain ⟨kind, value, following, first, allows, starts, _⟩ := operandFormed.exists_first .none
      have noEquals := head?_tokenText_ne allows starts
        (printedText (following ++ [closeParen]) ++ rest)
      simp only [Expr.printed, List.cons_append]
      refine .cons_open (sound_openParen gap) rfl ⟨⟨sign.allows, ?_⟩, afterSign⟩
      have text : printedText (operand.printed .none ++ [closeParen]) ++ rest =
          tokenText kind value ++ (printedText (following ++ [closeParen]) ++ rest) := by
        rw [first]
        simp
      rw [← text] at noEquals
      exact endsBefore_of_unary form spelled noEquals
  | pipe _ _ rightFormed leftLegible rightLegible =>
      have sign : (⟨.space, .pipe, "|"⟩ : Printed).Sound := sound_of_fixedText? rfl
      exact legible_infix sign rfl rightFormed leftLegible rightLegible gap separates
  | @call _ _ arguments _ _ argumentsFormed functionLegible argumentsLegible =>
      have closing := legible_singleton sound_closeParen separates
      have list := legible_separated arguments Expr.printed argumentsLegible
        (fun argument member => (argumentsFormed argument member).separates) .none
        (separates_text sound_closeParen rfl [] rest)
      simp only [Expr.printed, exprsPrinted_eq_map, List.append_assoc, List.cons_append]
      exact (legible_append _ _ _).2
        ⟨functionLegible gap (separates_text (sound_openParen .none) rfl _ _),
          .cons_open (sound_openParen .none) rfl ((legible_append _ _ _).2 ⟨list, closing⟩)⟩
  | member _ names spelled _ objectLegible =>
      have dot : (⟨.none, .dot, "."⟩ : Printed).Sound := sound_of_fixedText? rfl
      have property := sound_operator spelled (isToken_of_namesMember names) .none
      exact (legible_append _ _ _).2
        ⟨objectLegible gap (separates_member names spelled _ _),
          .cons_open dot rfl (legible_singleton property separates)⟩
  | index _ _ _ objectLegible positionLegible =>
      have closing := Legible.cons sound_closeBracket
        (separates_text sound_closeParen rfl [] rest) (legible_singleton sound_closeParen separates)
      have position := positionLegible .none
        (separates_text sound_closeBracket rfl [closeParen] rest)
      simp only [Expr.printed, List.append_assoc, List.cons_append]
      exact .cons_open (sound_openParen gap) rfl ((legible_append _ _ _).2
        ⟨objectLegible .none (separates_text (sound_openBracket .none) rfl _ _),
          .cons_open (sound_openBracket .none) rfl ((legible_append _ _ _).2
            ⟨position, closing⟩)⟩)
  | @array _ elements _ elementsFormed elementsLegible =>
      have closing := legible_singleton sound_closeBracket separates
      have list := legible_separated elements Expr.printed elementsLegible
        (fun element member => (elementsFormed element member).separates) .none
        (separates_text sound_closeBracket rfl [] rest)
      simp only [Expr.printed, exprsPrinted_eq_map, List.cons_append]
      exact .cons_open (sound_openBracket gap) rfl ((legible_append _ _ _).2 ⟨list, closing⟩)
  | @object _ entries _ _ valuesFormed valuesLegible =>
      have opening : (⟨gap, .openCurly, "\x7b"⟩ : Printed).Sound := sound_of_fixedText? rfl
      have closed : (⟨.none, .closeCurly, "\x7d"⟩ : Printed).Sound := sound_of_fixedText? rfl
      have each : ∀ entry ∈ entries, ∀ (gap : Gap) (rest : List Char), Separates rest →
          Legible (entryPrinted entry gap) rest := by
        intro entry member gap rest separates
        have value := valuesLegible entry member .space separates
        exact .cons (sound_key gap entry.1) (separates_text sound_colon rfl _ _)
          (.cons sound_colon ((valuesFormed entry member).separates rest) value)
      have list := legible_separated entries entryPrinted each
        (fun entry _ => entryPrinted_separates entry) .none (separates_text closed rfl [] rest)
      have closing := legible_singleton closed separates
      simp only [Expr.printed, entriesPrinted_eq_map, List.cons_append]
      exact .cons_open opening rfl ((legible_append _ _ _).2 ⟨list, closing⟩)

/-! ## Statements -/

/-- Pieces on lines between curly brackets are legible if each piece is. -/
theorem legible_bracedLines {α : Type} (items : List α) (piece : α → Gap → List Printed)
    (each : ∀ item ∈ items, ∀ (gap : Gap) (rest : List Char), Separates rest →
      Legible (piece item gap) rest)
    (starts : ∀ item ∈ items, ∀ depth rest,
      Separates (printedText (piece item (.line depth)) ++ rest))
    (depth : Nat) (gap : Gap) {rest : List Char} (separates : Separates rest) :
    Legible (bracedLines depth gap (items.map piece)) rest := by
  have opening : (⟨gap, .openCurly, "\x7b"⟩ : Printed).Sound := sound_of_fixedText? rfl
  have closed (gap : Gap) : (⟨gap, .closeCurly, "\x7d"⟩ : Printed).Sound := sound_of_fixedText? rfl
  have lines : ∀ (items : List α) (closing : Printed), closing.Sound → closing.separates = true →
      (∀ item ∈ items, ∀ (gap : Gap) (rest : List Char), Separates rest →
        Legible (piece item gap) rest) →
      (∀ item ∈ items, ∀ depth rest,
        Separates (printedText (piece item (.line depth)) ++ rest)) →
      Separates (printedText ((items.map piece).flatMap (fun piece => piece (.line (depth + 1))) ++
          [closing]) ++ rest) ∧
        Legible ((items.map piece).flatMap (fun piece => piece (.line (depth + 1))) ++ [closing])
          rest := by
    intro items closing sound closes each starts
    induction items with
    | nil => exact ⟨separates_text sound closes [] rest, legible_singleton sound separates⟩
    | cons item items inductionHypothesis =>
        obtain ⟨separatesRest, legibleRest⟩ :=
          inductionHypothesis (fun item member => each item (List.mem_cons_of_mem _ member))
            fun item member => starts item (List.mem_cons_of_mem _ member)
        rw [List.map_cons, List.flatMap_cons, List.append_assoc]
        refine ⟨?_, (legible_append _ _ _).2
          ⟨each item List.mem_cons_self _ _ separatesRest, legibleRest⟩⟩
        exact separates_append (starts item List.mem_cons_self (depth + 1)) _ rest
  have closes : (⟨if (items.map piece).isEmpty then .none else .line depth, .closeCurly,
      "\x7d"⟩ : Printed).separates = true := by
    split <;> rfl
  exact .cons_open opening rfl (lines items _ (closed _) closes each starts).2

theorem Stmt.WellFormed.separates {statement : Stmt} (wellFormed : statement.WellFormed)
    (depth : Nat) {gap : Gap} (noNone : gap ≠ .none ∧ gap ≠ .top) (rest : List Char) :
    Separates (printedText (statement.printed depth gap) ++ rest) := by
  rw [wellFormed.printedText_eq]
  cases gap with
  | none => exact absurd rfl noNone.1
  | top => exact absurd rfl noNone.2
  | space => exact separates_cons (by decide) (by decide)
  | line depth => exact separates_cons (by decide) (by decide)

theorem Stmt.WellFormed.separates_space {statement : Stmt} (wellFormed : statement.WellFormed)
    (depth : Nat) (rest : List Char) :
    Separates (printedText (statement.printed depth .space) ++ rest) :=
  wellFormed.separates depth (by simp) rest

/-- A type after its colon, and what follows it. -/
theorem legible_typePrinted_append {type? : Option TypeExpr} {following : List Printed}
    {rest : List Char} (wellFormed : ∀ type ∈ type?, type.WellFormed)
    (separates : Separates (printedText following ++ rest)) (legible : Legible following rest) :
    Separates (printedText (typePrinted type? ++ following) ++ rest) ∧
      Legible (typePrinted type? ++ following) rest := by
  cases type? with
  | none => exact ⟨separates, legible⟩
  | some type =>
      have typeFormed := wellFormed type rfl
      refine ⟨separates_text sound_colon rfl _ _, .cons sound_colon ?_
        ((legible_append _ _ _).2 ⟨typeFormed.legible .space separates, legible⟩)⟩
      change Separates (printedText (type.printed .space ++ following) ++ rest)
      rw [printedText_append, type.printedText_eq]
      exact separates_cons (by decide) (by decide)

theorem legible_parameter {parameter : Parameter} (wellFormed : parameter.WellFormed) (gap : Gap)
    {rest : List Char} (separates : Separates rest) : Legible (parameter.printed gap) rest := by
  have type : Separates (printedText (typePrinted parameter.declaredType? ++ []) ++ rest) ∧
      Legible (typePrinted parameter.declaredType? ++ []) rest :=
    legible_typePrinted_append wellFormed.type separates (legible_nil rest)
  rw [List.append_nil] at type
  exact .cons (sound_name wellFormed.name gap) type.1 type.2

/-- An expression in parentheses, and a block after it. -/
theorem legible_condition {condition : Expr} (wellFormed : condition.WellFormed)
    {block : List Printed} {rest : List Char} (separates : Separates (printedText block ++ rest))
    (legible : Legible block rest) :
    Legible (openParen .space :: condition.printed .none ++ closeParen :: block) rest :=
  .cons_open (sound_openParen .space) rfl ((legible_append _ _ _).2
    ⟨wellFormed.legible .none (separates_text sound_closeParen rfl _ _),
      .cons sound_closeParen separates legible⟩)

theorem legible_configEntry {entry : String × Expr} (isName : IsMemberName entry.1)
    (wellFormed : entry.2.WellFormed) (gap : Gap) {rest : List Char} (separates : Separates rest) :
    Legible (configEntryPrinted entry gap) rest :=
  .cons (sound_word isName gap) (separates_text sound_colon rfl _ _)
    (.cons sound_colon (wellFormed.separates rest) (wellFormed.legible .space separates))

theorem legible_namesPrinted {names : List Token} (areNames : ∀ name ∈ names, name.Is .identifier)
    (inBraces : Bool) {rest : List Char} (separates : Separates rest) :
    Legible (namesPrinted names inBraces) rest := by
  have list {rest : List Char} (separates : Separates rest) :=
    legible_separated names (fun token gap => [Printed.name gap token])
      (fun name member gap rest separates =>
        legible_singleton (sound_name (areNames name member) gap) separates)
      (fun name member rest => separates_text (sound_name (areNames name member) .space) rfl [] rest)
      .space separates
  cases inBraces with
  | false => exact list separates
  | true =>
      have opening : (⟨.space, .openCurly, "\x7b"⟩ : Printed).Sound := sound_of_fixedText? rfl
      have closing : (⟨.space, .closeCurly, "\x7d"⟩ : Printed).Sound := sound_of_fixedText? rfl
      exact .cons_open opening rfl ((legible_append _ _ _).2
        ⟨list (separates_text closing rfl [] rest), legible_singleton closing separates⟩)

/-- The clause that always runs, if there is one. -/
theorem legible_finalizerPrinted {depth : Nat} {finalizer? : Option Block} {rest : List Char}
    (formed : ∀ block ∈ finalizer?, (Stmt.block block).WellFormed)
    (legible : ∀ block ∈ finalizer?, ∀ {rest}, Separates rest →
      Legible (block.printed depth .space) rest)
    (separates : Separates rest) :
    Separates (printedText (finalizerPrinted depth finalizer?) ++ rest) ∧
      Legible (finalizerPrinted depth finalizer?) rest := by
  cases finalizer? with
  | none => exact ⟨separates, trivial⟩
  | some block =>
      have word := sound_keyword .space .finallyKw
      exact ⟨separates_text word rfl _ _,
        .cons word ((formed block rfl).separates_space depth rest)
          (legible block rfl separates)⟩

/-- The clause that catches, if there is one, and what follows it. -/
theorem legible_handlerPrinted_append {depth : Nat} {handler? : Option (Token × Block)}
    {following : List Printed} {rest : List Char}
    (isName : ∀ handler ∈ handler?, handler.1.Is .identifier)
    (formed : ∀ handler ∈ handler?, (Stmt.block handler.2).WellFormed)
    (handlerLegible : ∀ handler ∈ handler?, ∀ {rest}, Separates rest →
      Legible (handler.2.printed depth .space) rest)
    (separates : Separates (printedText following ++ rest)) (legible : Legible following rest) :
    Separates (printedText (handlerPrinted depth handler? ++ following) ++ rest) ∧
      Legible (handlerPrinted depth handler? ++ following) rest := by
  cases handler? with
  | none => exact ⟨separates, legible⟩
  | some handler =>
      have word := sound_keyword .space .catchKw
      have block := (legible_append _ _ _).2 ⟨handlerLegible handler rfl separates, legible⟩
      have starts := separates_append ((formed handler rfl).separates_space depth)
        following rest
      exact ⟨separates_text word rfl _ _,
        .cons word (separates_text (sound_openParen .space) rfl _ _)
          (.cons_open (sound_openParen .space) rfl
            (.cons (sound_name (isName handler rfl) .none)
              (separates_text sound_closeParen rfl _ _)
              (.cons sound_closeParen starts block)))⟩

/-- The names of an import, and its path. -/
theorem legible_importPrinted {names : List Token} {source : String} (inBraces : Bool)
    (areNames : ∀ name ∈ names, name.Is .identifier) {rest : List Char}
    (separates : Separates rest) :
    Legible (namesPrinted names inBraces ++
      [keyword .space .fromKw, ⟨.space, .string, source⟩]) rest := by
  have path : (⟨.space, .string, source⟩ : Printed).Sound := ⟨trivial, by simp⟩
  have word := sound_keyword .space .fromKw
  have following := Legible.cons word (separates_text path rfl [] rest)
    (legible_singleton path separates)
  exact (legible_append _ _ _).2
    ⟨legible_namesPrinted areNames inBraces (separates_text word rfl _ rest), following⟩

/-- The parameters of a tool in parentheses, and what follows them. -/
theorem legible_parameters {parameters : List Parameter}
    (formed : ∀ parameter ∈ parameters, parameter.WellFormed) {following : List Printed}
    {rest : List Char} (separates : Separates (printedText following ++ rest))
    (legible : Legible following rest) :
    Legible (openParen .none :: (separated .none (parameters.map Parameter.printed) ++
      closeParen :: following)) rest := by
  have closing := Legible.cons sound_closeParen separates legible
  have list := legible_separated parameters Parameter.printed
    (fun parameter member gap _ separates =>
      legible_parameter (formed parameter member) gap separates)
    (fun parameter member =>
      separates_text (sound_name (formed parameter member).name .space) rfl _)
    .none (separates_text sound_closeParen rfl following rest)
  exact .cons_open (sound_openParen .none) rfl ((legible_append _ _ _).2 ⟨list, closing⟩)

/-- A statement is legible before any text that separates. -/
theorem Stmt.WellFormed.legible {statement : Stmt} (wellFormed : statement.WellFormed)
    (depth : Nat) (gap : Gap) {rest : List Char} (separates : Separates rest) :
    Legible (statement.printed depth gap) rest := by
  induction wellFormed generalizing depth gap rest with
  | assignment isName typeFormed valueFormed =>
      have sign : (⟨.space, .assign, "="⟩ : Printed).Sound := sound_of_fixedText? rfl
      have value := Legible.cons sign (valueFormed.separates rest)
        (valueFormed.legible .space separates)
      have typed := legible_typePrinted_append typeFormed (separates_text sign rfl _ rest) value
      exact .cons (sound_name isName gap) typed.1 typed.2
  | expression valueFormed => exact valueFormed.legible gap separates
  | @block _ statements _ formed _ legible =>
      simp only [Stmt.printed, Block.printed, stmtsPrinted_eq_map]
      exact legible_bracedLines statements (Stmt.printed (depth + 1))
        (fun statement member gap rest separates => legible statement member _ gap separates)
        (fun statement member line => (formed statement member).separates (depth + 1) (by simp))
        depth gap separates
  | @conditional _ condition _ alternative? _ conditionFormed blockFormed alternativeFormed _
      blockLegible alternativeLegible =>
      have head := sound_keyword gap .ifKw
      cases alternative? with
      | none =>
          have block := blockLegible depth .space separates
          exact .cons head (separates_text (sound_openParen .space) rfl _ _)
            (legible_condition conditionFormed (blockFormed.separates_space depth rest) block)
      | some alternative =>
          have other := sound_keyword .space .elseKw
          have formed := alternativeFormed alternative rfl
          have following := Legible.cons other (formed.separates_space depth rest)
            (alternativeLegible alternative rfl depth .space separates)
          have block := (legible_append _ _ _).2
            ⟨blockLegible depth .space (separates_text other rfl _ rest), following⟩
          have starts := separates_append (blockFormed.separates_space depth)
            (keyword .space .elseKw :: alternative.printed depth .space) rest
          simp only [Stmt.printed, List.cons_append, List.append_assoc]
          exact .cons head (separates_text (sound_openParen .space) rfl _ _)
            (legible_condition conditionFormed starts block)
  | whileLoop _ conditionFormed blockFormed blockLegible =>
      have block := blockLegible depth .space separates
      exact .cons (sound_keyword gap .whileKw) (separates_text (sound_openParen .space) rfl _ _)
        (legible_condition conditionFormed (blockFormed.separates_space depth rest) block)
  | forOf _ isName iterableFormed blockFormed blockLegible =>
      have ofSound := sound_keyword .space .ofKw
      have body := Legible.cons sound_closeParen (blockFormed.separates_space depth rest)
        (blockLegible depth .space separates)
      have iterable := (legible_append _ _ _).2
        ⟨iterableFormed.legible .space (separates_text sound_closeParen rfl _ rest), body⟩
      exact .cons (sound_keyword gap .forKw) (separates_text (sound_openParen .space) rfl _ _)
        (.cons_open (sound_openParen .space) rfl
          (.cons (sound_name isName .none) (separates_text ofSound rfl _ _)
            (.cons ofSound (separates_append iterableFormed.separates _ rest) iterable)))
  | breakLoop _ => exact legible_singleton (sound_keyword gap .breakKw) separates
  | continueLoop _ => exact legible_singleton (sound_keyword gap .continueKw) separates
  | @returnValue _ value? _ valueFormed =>
      cases value? with
      | none => exact legible_singleton (sound_keyword gap .returnKw) separates
      | some value =>
          have formed := valueFormed value rfl
          exact .cons (sound_keyword gap .returnKw) (formed.separates rest)
            (formed.legible .space separates)
  | throwValue _ valueFormed =>
      exact .cons (sound_keyword gap .throwKw) (valueFormed.separates rest)
        (valueFormed.legible .space separates)
  | attempt _ bodyFormed handlerName handlerFormed finalizerFormed _ bodyLegible handlerLegible
      finalizerLegible =>
      have finalizer := legible_finalizerPrinted finalizerFormed
        (fun block given => finalizerLegible block given depth .space) separates
      have clauses := legible_handlerPrinted_append handlerName handlerFormed
        (fun handler given => handlerLegible handler given depth .space) finalizer.1 finalizer.2
      simp only [Stmt.printed, List.cons_append, List.append_assoc]
      exact .cons (sound_keyword gap .tryKw)
        (separates_append (bodyFormed.separates_space depth) _ rest)
        ((legible_append _ _ _).2 ⟨bodyLegible depth .space clauses.1, clauses.2⟩)
  | @config _ token _ entries form spelled _ isName _ names valuesFormed =>
      obtain ⟨word, isKeyword, _⟩ := Kind.statementForm?_eq_some_iff.1 form
      have brace : (⟨.space, .openCurly, "\x7b"⟩ : Printed).Sound := sound_of_fixedText? rfl
      have body := legible_bracedLines entries configEntryPrinted
        (fun entry member gap _ separates =>
          legible_configEntry (names entry member) (valuesFormed entry member) gap separates)
        (fun entry member line => separates_text (sound_word (names entry member) _) rfl _)
        depth .space separates
      exact .cons (sound_operator spelled (by simp [isKeyword]) gap)
        (separates_text (sound_name isName .space) rfl _ _)
        (.cons (sound_name isName .space) (separates_text brace rfl _ _) body)
  | tool _ isName parametersFormed typeFormed bodyFormed bodyLegible =>
      have block := legible_typePrinted_append typeFormed (bodyFormed.separates_space depth rest)
        (bodyLegible depth .space separates)
      have list := legible_parameters parametersFormed block.1 block.2
      simp only [Stmt.printed, List.cons_append, List.append_assoc]
      exact .cons (sound_keyword gap .toolKw) (separates_text (sound_name isName .space) rfl _ _)
        (.cons (sound_name isName .space) (separates_text (sound_openParen .none) rfl _ _) list)
  | @importNames _ names source inBraces _ nonempty areNames _ =>
      have starts : Separates (printedText (namesPrinted names inBraces ++
          [keyword .space .fromKw, ⟨.space, .string, source⟩]) ++ rest) := by
        rw [printedText_append, printedText_namesPrinted nonempty]
        exact separates_cons (by decide) (by decide)
      exact .cons (sound_keyword gap .importKw) starts
        (legible_importPrinted inBraces areNames separates)
  | exported _ _ formed legible =>
      exact .cons (sound_keyword gap .exportKw) (formed.separates_space depth rest)
        (legible depth .space separates)

/-- The printed tokens of a program are legible. -/
theorem Program.WellFormed.legible {program : Program} (wellFormed : program.WellFormed) :
    Legible program.printed [] := by
  have lines : ∀ statements : List Stmt, (∀ statement ∈ statements, statement.WellFormed) →
      Separates (printedText ((statements.map (Stmt.printed 0)).flatMap
          fun piece => piece (.line 0)) ++ []) ∧
        Legible ((statements.map (Stmt.printed 0)).flatMap fun piece => piece (.line 0)) [] := by
    intro statements formed
    induction statements with
    | nil => exact ⟨separates_nil, trivial⟩
    | cons statement rest inductionHypothesis =>
        have statementFormed := formed statement List.mem_cons_self
        obtain ⟨separatesRest, legibleRest⟩ :=
          inductionHypothesis fun statement member => formed statement (List.mem_cons_of_mem _ member)
        rw [List.map_cons, List.flatMap_cons]
        exact ⟨separates_append (statementFormed.separates 0 (by simp)) _ [],
          (legible_append _ _ _).2 ⟨statementFormed.legible 0 _ separatesRest, legibleRest⟩⟩
  have formed := wellFormed.statements
  unfold Program.printed
  rw [stmtsPrinted_eq_map]
  cases statements : program.statements with
  | nil => trivial
  | cons first rest =>
      rw [statements] at formed
      obtain ⟨separatesRest, legibleRest⟩ :=
        lines rest fun statement member => formed statement (List.mem_cons_of_mem _ member)
      exact (legible_append _ _ _).2
        ⟨(formed first List.mem_cons_self).legible 0 .top separatesRest, legibleRest⟩

end AgentScript
