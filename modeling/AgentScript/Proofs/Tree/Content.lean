import AgentScript.Proofs.Tree.Legible

/-!
Contract: the values that a tree holds, in the order of its canonical text.

Owns:
- the tokens that are not left to the layout: all but parentheses and commas;
- the values of a tree, form by form;
- that the printed tokens of a well-formed tree have the values of the tree.
-/

set_option autoImplicit false

namespace AgentScript

/-- Whether a token of this kind stays when parentheses and commas are left out. -/
def Kind.isContent : Kind → Bool
  | openParen | closeParen | comma => false
  | _ => true

/-- The values of the tokens, parentheses and commas left out. -/
def contentOf (tokens : List Token) : List String :=
  (tokens.filter fun token => token.kind.isContent).map Token.value

@[simp] theorem contentOf_nil : contentOf [] = [] := rfl

@[simp] theorem contentOf_append (left right : List Token) :
    contentOf (left ++ right) = contentOf left ++ contentOf right := by
  simp [contentOf]

theorem contentOf_cons (token : Token) (rest : List Token) :
    contentOf (token :: rest) =
      (if token.kind.isContent then [token.value] else []) ++ contentOf rest := by
  by_cases content : token.kind.isContent = true <;> simp [contentOf, content]

/-- The values of printed tokens, parentheses and commas left out. -/
def printedContent (tokens : List Printed) : List String :=
  (tokens.filter fun printed => printed.kind.isContent).map Printed.value

@[simp] theorem printedContent_nil : printedContent [] = [] := rfl

@[simp] theorem printedContent_append (left right : List Printed) :
    printedContent (left ++ right) = printedContent left ++ printedContent right := by
  simp [printedContent]

theorem printedContent_cons (printed : Printed) (rest : List Printed) :
    printedContent (printed :: rest) =
      (if printed.kind.isContent then [printed.value] else []) ++ printedContent rest := by
  by_cases content : printed.kind.isContent = true <;> simp [printedContent, content]

/-! ## The values of a tree -/

def TypeExpr.content : TypeExpr → List String
  | named name => [name]
  | array element => element.content ++ ["[", "]"]

mutual

def Expr.content : Expr → List String
  | .identifier token | .number token _ | .string token | .template token => [token.value]
  | .boolean _ value => [if value then "true" else "false"]
  | .null _ => ["null"]
  | .binary operator left right => left.content ++ operator.value :: right.content
  | .unary operator operand => operator.value :: operand.content
  | .pipe _ left right => left.content ++ "|" :: right.content
  | .call _ function arguments => function.content ++ contentOfExprs arguments
  | .member _ object property => object.content ++ [".", property.value]
  | .index _ object position => object.content ++ "[" :: position.content ++ ["]"]
  | .array _ elements => "[" :: contentOfExprs elements ++ ["]"]
  | .object _ entries => "\x7b" :: contentOfEntries entries ++ ["\x7d"]

def contentOfExprs : List Expr → List String
  | [] => []
  | expr :: rest => expr.content ++ contentOfExprs rest

def contentOfEntries : List (String × Expr) → List String
  | [] => []
  | (key, value) :: rest => key :: ":" :: value.content ++ contentOfEntries rest

end

/-- The type after a colon, if there is one. -/
def contentOfType : Option TypeExpr → List String
  | none => []
  | some type => ":" :: type.content

def Parameter.content (parameter : Parameter) : List String :=
  parameter.name.value :: contentOfType parameter.declaredType?

/-- The names of an import. -/
def contentOfNames (names : List Token) (inBraces : Bool) : List String :=
  if inBraces then "\x7b" :: names.map Token.value ++ ["\x7d"] else names.map Token.value

mutual

def Stmt.content : Stmt → List String
  | .assignment target declaredType? value =>
      target.value :: contentOfType declaredType? ++ "=" :: value.content
  | .expression _ value => value.content
  | .block body => body.content
  | .conditional _ condition consequence none => "if" :: condition.content ++ consequence.content
  | .conditional _ condition consequence (some alternative) =>
      "if" :: condition.content ++ consequence.content ++ "else" :: alternative.content
  | .whileLoop _ condition body => "while" :: condition.content ++ body.content
  | .forOf _ loopVariable iterable body =>
      "for" :: loopVariable.value :: "of" :: iterable.content ++ body.content
  | .breakLoop _ => ["break"]
  | .continueLoop _ => ["continue"]
  | .returnValue _ none => ["return"]
  | .returnValue _ (some value) => "return" :: value.content
  | .throwValue _ value => "throw" :: value.content
  | .attempt _ body handler? finalizer? =>
      "try" :: body.content ++ contentOfHandler handler? ++ contentOfFinalizer finalizer?
  | .config _ token target entries =>
      token.value :: target.value :: "\x7b" :: contentOfEntries entries ++ ["\x7d"]
  | .tool _ target parameters returnType? body =>
      "tool" :: target.value :: parameters.flatMap Parameter.content ++ contentOfType returnType? ++
        body.content
  | .importNames _ names source inBraces =>
      "import" :: contentOfNames names inBraces ++ ["from", source]
  | .exported _ statement => "export" :: statement.content

def Block.content : Block → List String
  | .mk _ statements => "\x7b" :: contentOfStmts statements ++ ["\x7d"]

def contentOfStmts : List Stmt → List String
  | [] => []
  | statement :: rest => statement.content ++ contentOfStmts rest

def contentOfHandler : Option (Token × Block) → List String
  | none => []
  | some (parameter, block) => "catch" :: parameter.value :: block.content

def contentOfFinalizer : Option Block → List String
  | none => []
  | some block => "finally" :: block.content

end

theorem contentOfExprs_eq_flatMap (exprs : List Expr) :
    contentOfExprs exprs = exprs.flatMap Expr.content := by
  induction exprs with
  | nil => rfl
  | cons expr rest inductionHypothesis =>
      rw [contentOfExprs, inductionHypothesis, List.flatMap_cons]

/-- The values of an entry. -/
def entryContent (entry : String × Expr) : List String := entry.1 :: ":" :: entry.2.content

theorem contentOfEntries_eq_flatMap (entries : List (String × Expr)) :
    contentOfEntries entries = entries.flatMap entryContent := by
  induction entries with
  | nil => rfl
  | cons entry rest inductionHypothesis =>
      rw [contentOfEntries, inductionHypothesis, List.flatMap_cons]
      rfl

theorem contentOfStmts_eq_flatMap (statements : List Stmt) :
    contentOfStmts statements = statements.flatMap Stmt.content := by
  induction statements with
  | nil => rfl
  | cons statement rest inductionHypothesis =>
      rw [contentOfStmts, inductionHypothesis, List.flatMap_cons]

/-! ## The values of printed tokens -/

open Printed

theorem isContent_wordKind (text : List Char) : (wordKind text).isContent = true := by
  unfold wordKind
  split <;> rfl

theorem isContent_of_namesMember {kind : Kind} (names : kind.namesMember = true) :
    kind.isContent = true := by
  cases kind <;> first | rfl | cases names

theorem isContent_of_binary {kind : Kind} (form : kind.infixForm? = some .binary) :
    kind.isContent = true := by
  cases kind <;> first | rfl | cases form

theorem isContent_of_unary {kind : Kind} (form : kind.operandForm? = some .unary) :
    kind.isContent = true := by
  cases kind <;> first | rfl | cases form

/-- A token that stays. -/
theorem printedContent_of_isContent {printed : Printed} (content : printed.kind.isContent = true)
    (rest : List Printed) :
    printedContent (printed :: rest) = printed.value :: printedContent rest := by
  rw [printedContent_cons, if_pos content]
  rfl

section

variable (gap : Gap) (token : Token) (rest : List Printed)

@[simp] theorem printedContent_openParen :
    printedContent (openParen gap :: rest) = printedContent rest := rfl

@[simp] theorem printedContent_closeParen :
    printedContent (closeParen :: rest) = printedContent rest := rfl

@[simp] theorem printedContent_openBracket :
    printedContent (openBracket gap :: rest) = "[" :: printedContent rest := rfl

@[simp] theorem printedContent_closeBracket :
    printedContent (closeBracket :: rest) = "]" :: printedContent rest := rfl

@[simp] theorem printedContent_colon :
    printedContent (colon :: rest) = ":" :: printedContent rest := rfl

@[simp] theorem printedContent_keyword (word : Keyword) :
    printedContent (keyword gap word :: rest) = word.word :: printedContent rest := rfl

@[simp] theorem printedContent_name :
    printedContent (name gap token :: rest) = token.value :: printedContent rest := rfl

@[simp] theorem printedContent_key (value : String) :
    printedContent (key gap value :: rest) = value :: printedContent rest := by
  refine printedContent_of_isContent ?_ rest
  unfold key
  split <;> rfl

@[simp] theorem printedContent_word (value : String) :
    printedContent (word gap value :: rest) = value :: printedContent rest :=
  printedContent_of_isContent (isContent_wordKind _) rest

@[simp] theorem printedContent_pipe (value : String) :
    printedContent (⟨gap, .pipe, value⟩ :: rest) = value :: printedContent rest := rfl

@[simp] theorem printedContent_dot (value : String) :
    printedContent (⟨gap, .dot, value⟩ :: rest) = value :: printedContent rest := rfl

@[simp] theorem printedContent_openCurly (value : String) :
    printedContent (⟨gap, .openCurly, value⟩ :: rest) = value :: printedContent rest := rfl

@[simp] theorem printedContent_closeCurly (value : String) :
    printedContent (⟨gap, .closeCurly, value⟩ :: rest) = value :: printedContent rest := rfl

@[simp] theorem printedContent_assign (value : String) :
    printedContent (⟨gap, .assign, value⟩ :: rest) = value :: printedContent rest := rfl

@[simp] theorem printedContent_string (value : String) :
    printedContent (⟨gap, .string, value⟩ :: rest) = value :: printedContent rest := rfl

theorem printedContent_operator (content : token.kind.isContent = true) :
    printedContent (operator gap token :: rest) = token.value :: printedContent rest :=
  printedContent_of_isContent content rest

end

theorem printedContent_separated {α : Type} {items : List α} {piece : α → Gap → List Printed}
    {content : α → List String}
    (each : ∀ item ∈ items, ∀ gap, printedContent (piece item gap) = content item) (gap : Gap) :
    printedContent (separated gap (items.map piece)) = items.flatMap content := by
  have commas : ∀ items : List α, (∀ item ∈ items, ∀ gap, printedContent (piece item gap) =
      content item) → printedContent ((items.map piece).flatMap fun piece =>
        ⟨.none, .comma, ","⟩ :: piece .space) = items.flatMap content := by
    intro items each
    induction items with
    | nil => rfl
    | cons first rest inductionHypothesis =>
        have restSame := inductionHypothesis fun item member =>
          each item (List.mem_cons_of_mem _ member)
        rw [List.map_cons, List.flatMap_cons, List.flatMap_cons, printedContent_append, restSame,
          printedContent_cons, each first List.mem_cons_self]
        rfl
  cases items with
  | nil => rfl
  | cons first rest =>
      rw [List.map_cons, separated, printedContent_append, each first List.mem_cons_self,
        commas rest fun item member => each item (List.mem_cons_of_mem _ member), List.flatMap_cons]

theorem printedContent_lines {α : Type} {items : List α} {piece : α → Gap → List Printed}
    {content : α → List String}
    (each : ∀ item ∈ items, ∀ gap, printedContent (piece item gap) = content item) (gap : Gap) :
    printedContent ((items.map piece).flatMap fun piece => piece gap) = items.flatMap content := by
  induction items with
  | nil => rfl
  | cons first rest inductionHypothesis =>
      rw [List.map_cons, List.flatMap_cons, List.flatMap_cons, printedContent_append,
        each first List.mem_cons_self,
        inductionHypothesis fun item member => each item (List.mem_cons_of_mem _ member)]

theorem printedContent_bracedLines {α : Type} {items : List α} {piece : α → Gap → List Printed}
    {content : α → List String}
    (each : ∀ item ∈ items, ∀ gap, printedContent (piece item gap) = content item)
    (depth : Nat) (gap : Gap) :
    printedContent (bracedLines depth gap (items.map piece)) =
      "\x7b" :: items.flatMap content ++ ["\x7d"] := by
  rw [bracedLines, List.cons_append, printedContent_cons, printedContent_append,
    printedContent_lines each]
  rfl

theorem TypeExpr.printedContent_eq (type : TypeExpr) (gap : Gap) :
    printedContent (type.printed gap) = type.content := by
  induction type with
  | named name => simp [TypeExpr.printed, TypeExpr.content]
  | array element inductionHypothesis =>
      simp [TypeExpr.printed, TypeExpr.content, inductionHypothesis]

theorem printedContent_typePrinted (type? : Option TypeExpr) :
    printedContent (typePrinted type?) = contentOfType type? := by
  cases type? with
  | none => rfl
  | some type => simp [typePrinted, contentOfType, TypeExpr.printedContent_eq]

theorem Expr.WellFormed.printedContent_eq {expr : Expr} (wellFormed : expr.WellFormed) (gap : Gap) :
    printedContent (expr.printed gap) = expr.content := by
  induction wellFormed generalizing gap with
  | identifier => rfl
  | number isNumber =>
      exact printedContent_operator gap _ [] (by rw [isNumber.1]; rfl)
  | string isString =>
      exact printedContent_operator gap _ [] (by rw [isString.1]; rfl)
  | template isTemplate =>
      exact printedContent_operator gap _ [] (by rw [isTemplate.1]; rfl)
  | boolean => rfl
  | null => rfl
  | binary form _ _ _ leftSame rightSame =>
      simp [Expr.printed, Expr.content, leftSame, rightSame,
        printedContent_operator _ _ _ (isContent_of_binary form)]
  | unary form _ _ operandSame =>
      simp [Expr.printed, Expr.content, operandSame,
        printedContent_operator _ _ _ (isContent_of_unary form)]
  | pipe _ _ _ leftSame rightSame =>
      simp [Expr.printed, Expr.content, leftSame, rightSame]
  | call _ _ _ functionSame argumentsSame =>
      simp [Expr.printed, Expr.content, functionSame, exprsPrinted_eq_map,
        printedContent_separated argumentsSame, contentOfExprs_eq_flatMap]
  | member _ names _ _ objectSame =>
      simp [Expr.printed, Expr.content, objectSame,
        printedContent_operator _ _ _ (isContent_of_namesMember names)]
  | index _ _ _ objectSame positionSame =>
      simp [Expr.printed, Expr.content, objectSame, positionSame]
  | array _ _ elementsSame =>
      simp [Expr.printed, Expr.content, exprsPrinted_eq_map, printedContent_separated elementsSame,
        contentOfExprs_eq_flatMap]
  | @object _ entries _ _ _ valuesSame =>
      have each : ∀ entry ∈ entries, ∀ gap,
          printedContent (entryPrinted entry gap) = entryContent entry := by
        intro entry member gap
        simp [entryPrinted, entryContent, valuesSame entry member]
      simp [Expr.printed, Expr.content, entriesPrinted_eq_map, printedContent_separated each,
        contentOfEntries_eq_flatMap]

theorem printedContent_namesPrinted (names : List Token) (inBraces : Bool) :
    printedContent (namesPrinted names inBraces) = contentOfNames names inBraces := by
  have each : ∀ token ∈ names, ∀ gap, printedContent [name gap token] = [token.value] :=
    fun _ _ _ => rfl
  have values : (names.flatMap fun token => [token.value]) = names.map Token.value :=
    List.map_eq_flatMap.symm
  cases inBraces with
  | false => simp [namesPrinted, contentOfNames, printedContent_separated each, values]
  | true => simp [namesPrinted, contentOfNames, printedContent_separated each, values]

/-- The printed tokens of a statement have the values of the statement. -/
theorem Stmt.WellFormed.printedContent_eq {statement : Stmt} (wellFormed : statement.WellFormed)
    (depth : Nat) (gap : Gap) :
    printedContent (statement.printed depth gap) = statement.content := by
  induction wellFormed generalizing depth gap with
  | assignment _ _ valueFormed =>
      simp [Stmt.printed, Stmt.content, printedContent_typePrinted, valueFormed.printedContent_eq]
  | expression valueFormed => exact valueFormed.printedContent_eq gap
  | block _ _ _ statementsSame =>
      have each := fun statement member => statementsSame statement member (depth + 1)
      simp only [Stmt.printed, Stmt.content, Block.printed, Block.content, stmtsPrinted_eq_map,
        contentOfStmts_eq_flatMap, printedContent_bracedLines each]
  | @conditional _ _ _ alternative? _ conditionFormed _ _ _ blockSame alternativeSame =>
      simp only [Stmt.printed, Stmt.content] at blockSame
      cases alternative? with
      | none =>
          simp [Stmt.printed, Stmt.content, conditionFormed.printedContent_eq, blockSame,
            Keyword.word]
      | some alternative =>
          simp [Stmt.printed, Stmt.content, conditionFormed.printedContent_eq, blockSame,
            alternativeSame alternative rfl, Keyword.word]
  | whileLoop _ conditionFormed _ blockSame =>
      simp only [Stmt.printed, Stmt.content] at blockSame
      simp [Stmt.printed, Stmt.content, conditionFormed.printedContent_eq, blockSame, Keyword.word]
  | forOf _ _ iterableFormed _ blockSame =>
      simp only [Stmt.printed, Stmt.content] at blockSame
      simp [Stmt.printed, Stmt.content, iterableFormed.printedContent_eq, blockSame, Keyword.word]
  | breakLoop => rfl
  | continueLoop => rfl
  | @returnValue _ value? _ valueFormed =>
      cases value? with
      | none => rfl
      | some value =>
          simp [Stmt.printed, Stmt.content, (valueFormed value rfl).printedContent_eq, Keyword.word]
  | throwValue _ valueFormed =>
      simp [Stmt.printed, Stmt.content, valueFormed.printedContent_eq, Keyword.word]
  | @attempt _ _ handler? finalizer? _ _ _ _ _ _ blockSame handlerSame finalizerSame =>
      simp only [Stmt.printed, Stmt.content] at blockSame handlerSame finalizerSame
      have handlerContent : printedContent (handlerPrinted depth handler?) =
          contentOfHandler handler? := by
        cases handler? with
        | none => rfl
        | some handler =>
            simp [handlerPrinted, contentOfHandler, handlerSame handler rfl, Keyword.word]
      have finalizerContent : printedContent (finalizerPrinted depth finalizer?) =
          contentOfFinalizer finalizer? := by
        cases finalizer? with
        | none => rfl
        | some finalizer =>
            simp [finalizerPrinted, contentOfFinalizer, finalizerSame finalizer rfl, Keyword.word]
      simp [Stmt.printed, Stmt.content, blockSame, handlerContent, finalizerContent, Keyword.word]
  | @config _ _ _ entries isConfig _ _ _ _ _ valuesFormed =>
      have each : ∀ entry ∈ entries, ∀ gap,
          printedContent (configEntryPrinted entry gap) = entryContent entry := by
        intro entry member gap
        simp [configEntryPrinted, entryContent, (valuesFormed entry member).printedContent_eq]
      obtain ⟨word, isWord, _⟩ := Kind.statementForm?_eq_some_iff.1 isConfig
      simp [Stmt.printed, Stmt.content, printedContent_bracedLines each,
        contentOfEntries_eq_flatMap, printedContent_operator _ _ _ (by rw [isWord]; rfl)]
  | @tool _ _ parameters returnType? _ _ _ _ _ _ blockSame =>
      simp only [Stmt.printed, Stmt.content] at blockSame
      have each : ∀ parameter ∈ parameters, ∀ gap,
          printedContent (Parameter.printed parameter gap) = parameter.content := by
        intro parameter _ gap
        simp [Parameter.printed, Parameter.content, printedContent_typePrinted]
      simp [Stmt.printed, Stmt.content, printedContent_separated each, printedContent_typePrinted,
        blockSame, Keyword.word]
  | importNames =>
      simp [Stmt.printed, Stmt.content, printedContent_namesPrinted, Keyword.word]
  | exported _ _ _ statementSame =>
      simp [Stmt.printed, Stmt.content, statementSame, Keyword.word]

/-- The printed tokens of a program have the values of its statements. -/
theorem Program.WellFormed.printedContent_eq {program : Program} (wellFormed : program.WellFormed) :
    printedContent program.printed = contentOfStmts program.statements := by
  have each : ∀ statement ∈ program.statements, ∀ gap,
      printedContent (statement.printed 0 gap) = statement.content :=
    fun statement member => (wellFormed.statements statement member).printedContent_eq 0
  unfold Program.printed
  rw [stmtsPrinted_eq_map, contentOfStmts_eq_flatMap]
  cases statements : program.statements with
  | nil => rfl
  | cons first rest =>
      rw [statements] at each
      have restSame := printedContent_lines
        (fun statement member => each statement (List.mem_cons_of_mem _ member)) (.line 0)
      rw [List.map_cons]
      simp only [printedContent_append, restSame, each first List.mem_cons_self, List.flatMap_cons]

end AgentScript
