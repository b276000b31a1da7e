import AgentScript.Proofs.Token.Forms
import AgentScript.Proofs.Tree.Printed
import AgentScript.Proofs.Tree.WellFormed

/-!
Contract: the canonical text of a well-formed tree is the text of its printed tokens.

Owns: this equation for types, expressions, statements and programs, and for the ways their parts
are put together: with commas between them, and on lines between curly brackets.
-/

set_option autoImplicit false

namespace AgentScript

open Printed

@[simp] theorem printedText_nil : printedText [] = [] := rfl

@[simp] theorem printedText_cons (printed : Printed) (rest : List Printed) :
    printedText (printed :: rest) =
      printed.gap.text ++ (tokenText printed.kind printed.value ++ printedText rest) := by
  simp [printedText, Printed.text]

@[simp] theorem printedText_append (left right : List Printed) :
    printedText (left ++ right) = printedText left ++ printedText right := by
  simp [printedText]

@[simp] theorem Gap.text_none : Gap.text .none = [] := rfl

@[simp] theorem Gap.text_top : Gap.text .top = [] := rfl

@[simp] theorem Gap.text_space : Gap.text .space = [' '] := rfl

@[simp] theorem Gap.text_line (depth : Nat) :
    Gap.text (.line depth) = '\n' :: (margin depth).toList := by
  simp [Gap.text, margin]

/-- A token that is no literal is written as its value. -/
@[simp] theorem tokenText_eq_value {kind : Kind} (value : String) (noString : kind ≠ .string)
    (noTemplate : kind ≠ .template) : tokenText kind value = value.toList := by
  cases kind <;> simp_all [tokenText]

theorem wordKind_ne_string (word : List Char) : wordKind word ≠ .string := by
  unfold wordKind
  split <;> simp

theorem wordKind_ne_template (word : List Char) : wordKind word ≠ .template := by
  unfold wordKind
  split <;> simp

@[simp] theorem tokenText_wordKind (word : List Char) (value : String) :
    tokenText (wordKind word) value = value.toList :=
  tokenText_eq_value value (wordKind_ne_string word) (wordKind_ne_template word)

/-! ## Parts put together -/

section

variable {α : Type}

/-- Commas between pieces are written as the joint of their texts. -/
theorem printedText_separated (items : List α) (piece : α → Gap → List Printed) (text : α → String)
    (written : ∀ item ∈ items, ∀ gap, printedText (piece item gap) = gap.text ++ (text item).toList)
    (gap : Gap) (start : items = [] → gap.text = []) :
    printedText (separated gap (items.map piece)) =
      gap.text ++ (joined ", " (items.map text)).toList := by
  have further : ∀ (item : α) (rest : List α),
      (∀ item ∈ rest, ∀ gap, printedText (piece item gap) = gap.text ++ (text item).toList) →
      (text item).toList ++ printedText ((rest.map piece).flatMap
          fun piece => ⟨.none, .comma, ","⟩ :: piece .space) =
        (joined ", " ((item :: rest).map text)).toList := by
    intro item rest writtenRest
    induction rest generalizing item with
    | nil => simp [joined]
    | cons next rest inductionHypothesis =>
        have rest := inductionHypothesis next fun item member =>
          writtenRest item (List.mem_cons_of_mem _ member)
        have writtenNext := writtenRest next List.mem_cons_self .space
        simp only [List.map_cons, joined, String.toList_append, List.flatMap_cons,
          printedText_append, printedText_cons, writtenNext]
        simp [tokenText]
        exact rest
  cases items with
  | nil => simp [separated, joined, start]
  | cons first rest =>
      have writtenFirst := written first List.mem_cons_self gap
      simp only [List.map_cons, separated, printedText_append, writtenFirst, List.append_assoc]
      rw [further first rest fun item member => written item (List.mem_cons_of_mem _ member),
        List.map_cons]

/-- Lines between curly brackets are written with their margins. -/
theorem printedText_bracedLines (items : List α) (piece : α → Gap → List Printed)
    (text : α → String)
    (written : ∀ item ∈ items, ∀ gap, printedText (piece item gap) = gap.text ++ (text item).toList)
    (depth : Nat) (gap : Gap) :
    printedText (bracedLines depth gap (items.map piece)) =
      gap.text ++ (braced depth (items.map text)).toList := by
  have lines : ∀ rest : List α,
      (∀ item ∈ rest, ∀ gap, printedText (piece item gap) = gap.text ++ (text item).toList) →
      printedText ((rest.map piece).flatMap fun piece => piece (.line (depth + 1))) ++ ['\n'] =
        '\n' :: (joined "" ((rest.map text).map fun line =>
          margin (depth + 1) ++ line ++ "\n")).toList := by
    intro rest writtenRest
    induction rest with
    | nil => simp [joined]
    | cons next rest inductionHypothesis =>
        have restLines := inductionHypothesis fun item member =>
          writtenRest item (List.mem_cons_of_mem _ member)
        have writtenNext := writtenRest next List.mem_cons_self (.line (depth + 1))
        have joint : ∀ (line : String) (lines : List String),
            (joined "" (line :: lines)).toList = line.toList ++ (joined "" lines).toList := by
          intro line lines
          cases lines <;> simp [joined]
        simp only [List.map_cons, List.flatMap_cons, printedText_append, writtenNext,
          List.append_assoc, restLines, joint, String.toList_append, margin,
          String.toList_ofList, Gap.text_line]
        simp
  cases items with
  | nil => simp [bracedLines, braced, tokenText]
  | cons first rest =>
      have inside := congrArg (fun written => written ++ ((margin depth).toList ++ ['\x7d']))
        (lines (first :: rest) written)
      simp only [List.append_assoc, List.cons_append, List.nil_append, List.map_cons] at inside
      simp only [bracedLines, List.map_cons, List.cons_append, printedText_cons, printedText_append,
        List.isEmpty_cons, Bool.false_eq_true, ↓reduceIte, Gap.text_line, tokenText, braced,
        String.toList_append, List.append_assoc, printedText_nil]
      exact congrArg (fun written => gap.text ++ '\x7b' :: written) inside

end

/-! ## Types and expressions -/

theorem TypeExpr.printedText_eq (type : TypeExpr) (gap : Gap) :
    printedText (type.printed gap) = gap.text ++ type.text.toList := by
  induction type with
  | named name => simp [TypeExpr.printed, TypeExpr.text, word]
  | array element inductionHypothesis =>
      simp [TypeExpr.printed, TypeExpr.text, inductionHypothesis, openBracket, closeBracket,
        tokenText]

theorem exprTexts_eq_map (exprs : List Expr) : exprTexts exprs = exprs.map Expr.text := by
  induction exprs with
  | nil => rfl
  | cons expr rest inductionHypothesis => rw [exprTexts, inductionHypothesis, List.map_cons]

/-- The canonical text of an entry of an object literal or a configured declaration. -/
def entryText (keyText : String → String) (entry : String × Expr) : String :=
  keyText entry.1 ++ ": " ++ entry.2.text

theorem entryTexts_eq_map (entries : List (String × Expr)) :
    entryTexts entries = entries.map (entryText keyText) := by
  induction entries with
  | nil => rfl
  | cons entry rest inductionHypothesis =>
      rw [entryTexts, inductionHypothesis, List.map_cons]
      rfl

theorem tokenText_key (text : String) (gap : Gap) :
    tokenText (key gap text).kind (key gap text).value = (keyText text).toList := by
  unfold key keyText
  split <;> simp [tokenText]

/-- An operator is written as its value. -/
theorem tokenText_of_fixedText? {kind : Kind} {text : String}
    (only : kind.fixedText? = some text) (value : String) :
    tokenText kind value = value.toList := by
  refine tokenText_eq_value value ?_ ?_ <;>
    · rintro rfl
      cases only

theorem Kind.exists_fixedText?_of_binary {kind : Kind} (form : kind.infixForm? = some .binary) :
    ∃ text, kind.fixedText? = some text := by
  cases kind <;> simp_all [Kind.infixForm?, Kind.fixedText?]

theorem Kind.exists_fixedText?_of_unary {kind : Kind} (form : kind.operandForm? = some .unary) :
    ∃ text, kind.fixedText? = some text := by
  cases kind <;> simp_all [Kind.operandForm?, Kind.fixedText?]

theorem tokenText_of_namesMember {kind : Kind} (names : kind.namesMember = true) (value : String) :
    tokenText kind value = value.toList := by
  refine tokenText_eq_value value ?_ ?_ <;>
    · rintro rfl
      exact absurd names (by decide)

theorem Expr.WellFormed.printedText_eq {expr : Expr} (wellFormed : expr.WellFormed) (gap : Gap) :
    printedText (expr.printed gap) = gap.text ++ expr.text.toList := by
  induction wellFormed generalizing gap with
  | identifier name _ => simp [Expr.printed, Expr.text, Printed.name]
  | number isNumber _ =>
      simp [Expr.printed, Expr.text, Printed.operator, tokenText, isNumber.1]
  | string isString => simp [Expr.printed, Expr.text, Printed.operator, tokenText, isString.1]
  | template isTemplate =>
      simp [Expr.printed, Expr.text, Printed.operator, tokenText, isTemplate.1]
  | @boolean _ value _ _ =>
      cases value <;> simp [Expr.printed, Expr.text]
  | null _ _ => simp [Expr.printed, Expr.text]
  | binary form _ _ _ leftText rightText =>
      obtain ⟨text, only⟩ := Kind.exists_fixedText?_of_binary form
      simp [Expr.printed, Expr.text, Printed.operator, openParen, closeParen, leftText, rightText,
        tokenText_of_fixedText? only]
  | unary form _ _ operandText =>
      obtain ⟨text, only⟩ := Kind.exists_fixedText?_of_unary form
      simp [Expr.printed, Expr.text, Printed.operator, openParen, closeParen, operandText,
        tokenText_of_fixedText? only]
  | pipe _ _ _ leftText rightText =>
      simp [Expr.printed, Expr.text, openParen, closeParen, leftText, rightText]
  | @call _ _ arguments _ _ _ functionText argumentTexts =>
      have list := printedText_separated arguments Expr.printed Expr.text argumentTexts .none
        fun _ => rfl
      simp [Expr.printed, Expr.text, exprsPrinted_eq_map, exprTexts_eq_map, openParen, closeParen,
        functionText, list]
  | member _ names _ _ objectText =>
      simp [Expr.printed, Expr.text, Printed.operator, objectText, tokenText_of_namesMember names]
  | index _ _ _ objectText positionText =>
      simp [Expr.printed, Expr.text, openParen, closeParen, openBracket, closeBracket, objectText,
        positionText]
  | @array _ elements _ _ elementTexts =>
      have list := printedText_separated elements Expr.printed Expr.text elementTexts .none
        fun _ => rfl
      simp [Expr.printed, Expr.text, exprsPrinted_eq_map, exprTexts_eq_map, openBracket,
        closeBracket, list]
  | @object _ entries _ _ _ valueTexts =>
      have written : ∀ entry ∈ entries, ∀ gap,
          printedText (entryPrinted entry gap) = gap.text ++ (entryText keyText entry).toList := by
        intro entry member gap
        simp only [entryPrinted, printedText_cons, tokenText_key, entryText]
        simp [colon, valueTexts entry member, Printed.key]
      have list := printedText_separated entries entryPrinted (entryText keyText) written .none
        fun _ => rfl
      simp [Expr.printed, Expr.text, entriesPrinted_eq_map, entryTexts_eq_map, list]

/-! ## Statements -/

theorem printedText_typed (gap : Gap) (name : Token) (type? : Option TypeExpr) :
    printedText (Printed.name gap name :: typePrinted type?) =
      gap.text ++ (typedName name type?).toList := by
  cases type? with
  | none => simp [Printed.name, typePrinted, typedName]
  | some type =>
      simp [Printed.name, typePrinted, typedName, tokenText, colon, TypeExpr.printedText_eq]

theorem stmtTexts_eq_map (depth : Nat) (statements : List Stmt) :
    stmtTexts depth statements = statements.map (Stmt.text depth) := by
  induction statements with
  | nil => rfl
  | cons statement rest inductionHypothesis =>
      rw [stmtTexts, inductionHypothesis, List.map_cons]

theorem printedText_namesPrinted {names : List Token} (nonempty : names ≠ [])
    (inBraces : Bool) :
    printedText (namesPrinted names inBraces) = ' ' :: (importedNames names inBraces).toList := by
  have list := printedText_separated names (fun token gap => [Printed.name gap token]) Token.value
    (by simp [Printed.name]) .space (fun empty => absurd empty nonempty)
  cases inBraces <;> simp [namesPrinted, importedNames, list]

theorem Stmt.WellFormed.printedText_eq {statement : Stmt} (wellFormed : statement.WellFormed)
    (depth : Nat) (gap : Gap) :
    printedText (statement.printed depth gap) = gap.text ++ (statement.text depth).toList := by
  induction wellFormed generalizing depth gap with
  | @assignment name type? value _ _ valueFormed =>
      have typed := printedText_typed gap name type?
      have whole := congrArg (fun written => written ++ " = ".toList ++ value.text.toList) typed
      simpa [Stmt.printed, Stmt.text, valueFormed.printedText_eq] using whole
  | expression valueFormed => exact valueFormed.printedText_eq gap
  | @block _ statements _ _ _ statementTexts =>
      simp only [Stmt.printed, Stmt.text, Block.printed, Block.text, stmtsPrinted_eq_map,
        stmtTexts_eq_map]
      exact printedText_bracedLines statements (Stmt.printed (depth + 1)) (Stmt.text (depth + 1))
        (fun statement member gap => statementTexts statement member (depth + 1) gap) depth gap
  | @conditional _ _ _ alternative? _ conditionFormed _ _ _ blockText alternativeText =>
      simp only [Stmt.printed, Stmt.text] at blockText
      cases alternative? with
      | none =>
          simp [Stmt.printed, Stmt.text, keyword, openParen, closeParen, Keyword.word,
            conditionFormed.printedText_eq, blockText]
      | some alternative =>
          simp [Stmt.printed, Stmt.text, keyword, openParen, closeParen, Keyword.word,
            conditionFormed.printedText_eq, blockText, alternativeText alternative rfl]
  | whileLoop _ conditionFormed _ blockText =>
      simp only [Stmt.printed, Stmt.text] at blockText
      simp [Stmt.printed, Stmt.text, keyword, openParen, closeParen, Keyword.word,
        conditionFormed.printedText_eq, blockText]
  | forOf _ _ iterableFormed _ blockText =>
      simp only [Stmt.printed, Stmt.text] at blockText
      simp [Stmt.printed, Stmt.text, keyword, openParen, closeParen, Printed.name, Keyword.word,
        iterableFormed.printedText_eq, blockText]
  | breakLoop _ => simp [Stmt.printed, Stmt.text, keyword, Keyword.word]
  | continueLoop _ => simp [Stmt.printed, Stmt.text, keyword, Keyword.word]
  | @returnValue _ value? _ valueFormed =>
      cases value? with
      | none => simp [Stmt.printed, Stmt.text, keyword, Keyword.word]
      | some value =>
          simp [Stmt.printed, Stmt.text, keyword, Keyword.word,
            (valueFormed value rfl).printedText_eq]
  | throwValue _ valueFormed =>
      simp [Stmt.printed, Stmt.text, keyword, Keyword.word, valueFormed.printedText_eq]
  | @attempt _ _ handler? finalizer? _ _ _ _ _ _ blockText handlerBlockText finalizerBlockText =>
      simp only [Stmt.printed, Stmt.text] at blockText handlerBlockText finalizerBlockText
      have handlerWritten :
          printedText (handlerPrinted depth handler?) = (handlerText depth handler?).toList := by
        cases handler? with
        | none => rfl
        | some handler =>
            simp [handlerPrinted, handlerText, keyword, openParen, closeParen, Printed.name,
              Keyword.word, handlerBlockText handler rfl]
      have finalizerWritten :
          printedText (finalizerPrinted depth finalizer?) =
            (finalizerText depth finalizer?).toList := by
        cases finalizer? with
        | none => rfl
        | some finalizer =>
            simp [finalizerPrinted, finalizerText, keyword, Keyword.word,
              finalizerBlockText finalizer rfl]
      simp [Stmt.printed, Stmt.text, keyword, Keyword.word, blockText, handlerWritten,
        finalizerWritten]
  | @config _ token _ entries form _ _ _ _ _ valuesFormed =>
      have written : ∀ entry ∈ entries, ∀ gap,
          printedText (configEntryPrinted entry gap) =
            gap.text ++ (entryText id entry).toList := by
        intro entry member gap
        simp [configEntryPrinted, entryText, word, colon, (valuesFormed entry member).printedText_eq]
      have body := printedText_bracedLines entries configEntryPrinted (entryText id) written depth
        .space
      obtain ⟨word, isKeyword, _⟩ := Kind.statementForm?_eq_some_iff.1 form
      simp [Stmt.printed, Stmt.text, operator, Printed.name, isKeyword, body]
      rfl
  | @tool _ name parameters returnType? _ _ _ _ _ _ blockText =>
      simp only [Stmt.printed, Stmt.text] at blockText
      have list := printedText_separated parameters Parameter.printed Parameter.text
        (fun parameter _ gap => printedText_typed gap parameter.name parameter.declaredType?)
        .none fun _ => rfl
      cases returnType? with
      | none =>
          simp [Stmt.printed, Stmt.text, keyword, openParen, closeParen, Printed.name, Keyword.word,
            list, typePrinted, blockText]
      | some type =>
          simp [Stmt.printed, Stmt.text, keyword, openParen, closeParen, Printed.name, Keyword.word,
            list, typePrinted, colon, type.printedText_eq, blockText]
  | @importNames _ names source inBraces _ nonempty _ _ =>
      simp [Stmt.printed, Stmt.text, keyword, Keyword.word,
        printedText_namesPrinted nonempty inBraces, tokenText]
  | exported _ _ _ statementText =>
      simp [Stmt.printed, Stmt.text, keyword, Keyword.word, statementText]

/-- The canonical text of a program is the text of its printed tokens. -/
theorem Program.WellFormed.printedText_eq {program : Program} (wellFormed : program.WellFormed) :
    printedText program.printed = program.text.toList := by
  have lines : ∀ (first : Stmt) (rest : List Stmt), first.WellFormed →
      (∀ statement ∈ rest, statement.WellFormed) →
      (first.text 0).toList ++
          printedText ((rest.map (Stmt.printed 0)).flatMap fun piece => piece (.line 0)) =
        (joined "\n" ((first :: rest).map (Stmt.text 0))).toList := by
    intro first rest firstFormed restFormed
    induction rest generalizing first with
    | nil => simp [joined]
    | cons next rest inductionHypothesis =>
        have nextFormed := restFormed next List.mem_cons_self
        have after := inductionHypothesis next nextFormed fun statement member =>
          restFormed statement (List.mem_cons_of_mem _ member)
        simp only [List.map_cons, List.flatMap_cons, joined, printedText_append,
          nextFormed.printedText_eq, String.toList_append, List.append_assoc] at after ⊢
        rw [← after]
        simp [margin]
  unfold Program.printed Program.text
  have formed := wellFormed.statements
  rw [stmtsPrinted_eq_map, stmtTexts_eq_map]
  cases statements : program.statements with
  | nil => rfl
  | cons first rest =>
      rw [statements] at formed
      have firstFormed := formed first List.mem_cons_self
      have whole := lines first rest firstFormed fun statement member =>
        formed statement (List.mem_cons_of_mem _ member)
      simp only [List.map_cons, printedText_append, firstFormed.printedText_eq]
      exact whole

end AgentScript
