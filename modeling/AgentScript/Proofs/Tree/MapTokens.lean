import AgentScript.Proofs.Tree.PrintedText

/-!
Contract: trees with other tokens in the place of their own.

Owns:
- the replacement of every token of a tree, with one function for the tokens that expression
  statements keep and one for all others;
- bare trees, which keep no positions;
- trees moved to other positions, once or one move after the other;
- that the canonical text of a tree does not depend on the positions of its tokens.
-/

set_option autoImplicit false

namespace AgentScript

/-- The token at another position. -/
def Token.moved (move : Position → Position) (token : Token) : Token :=
  { token with position := move token.position }

mutual

def Expr.mapTokens (place : Token → Token) : Expr → Expr
  | .identifier token => .identifier (place token)
  | .number token value => .number (place token) value
  | .string token => .string (place token)
  | .template token => .template (place token)
  | .boolean token value => .boolean (place token) value
  | .null token => .null (place token)
  | .binary operator left right =>
      .binary (place operator) (left.mapTokens place) (right.mapTokens place)
  | .unary operator operand => .unary (place operator) (operand.mapTokens place)
  | .pipe operator left right =>
      .pipe (place operator) (left.mapTokens place) (right.mapTokens place)
  | .call paren function arguments =>
      .call (place paren) (function.mapTokens place) (mapTokensOfExprs place arguments)
  | .member dot object property =>
      .member (place dot) (object.mapTokens place) (place property)
  | .index bracket object position =>
      .index (place bracket) (object.mapTokens place) (position.mapTokens place)
  | .array bracket elements => .array (place bracket) (mapTokensOfExprs place elements)
  | .object brace entries => .object (place brace) (mapTokensOfEntries place entries)

def mapTokensOfExprs (place : Token → Token) : List Expr → List Expr
  | [] => []
  | expr :: rest => expr.mapTokens place :: mapTokensOfExprs place rest

def mapTokensOfEntries (place : Token → Token) : List (String × Expr) → List (String × Expr)
  | [] => []
  | (key, value) :: rest => (key, value.mapTokens place) :: mapTokensOfEntries place rest

end

def Parameter.mapTokens (place : Token → Token) (parameter : Parameter) : Parameter :=
  { parameter with name := place parameter.name }

mutual

def Stmt.mapTokens (place first : Token → Token) : Stmt → Stmt
  | .assignment name declaredType? value =>
      .assignment (place name) declaredType? (value.mapTokens place)
  | .expression token value => .expression (first token) (value.mapTokens place)
  | .block body => .block (body.mapTokens place first)
  | .conditional keyword condition consequence none =>
      .conditional (place keyword) (condition.mapTokens place) (consequence.mapTokens place first)
        none
  | .conditional keyword condition consequence (some alternative) =>
      .conditional (place keyword) (condition.mapTokens place) (consequence.mapTokens place first)
        (some (alternative.mapTokens place first))
  | .whileLoop keyword condition body =>
      .whileLoop (place keyword) (condition.mapTokens place) (body.mapTokens place first)
  | .forOf keyword loopVariable iterable body =>
      .forOf (place keyword) (place loopVariable) (iterable.mapTokens place)
        (body.mapTokens place first)
  | .breakLoop keyword => .breakLoop (place keyword)
  | .continueLoop keyword => .continueLoop (place keyword)
  | .returnValue keyword value? =>
      .returnValue (place keyword) (value?.map (Expr.mapTokens place))
  | .throwValue keyword value => .throwValue (place keyword) (value.mapTokens place)
  | .attempt keyword body handler? finalizer? =>
      .attempt (place keyword) (body.mapTokens place first) (mapTokensOfHandler place first handler?)
        (mapTokensOfFinalizer place first finalizer?)
  | .config kind keyword name entries =>
      .config kind (place keyword) (place name) (mapTokensOfEntries place entries)
  | .tool keyword name parameters returnType? body =>
      .tool (place keyword) (place name) (parameters.map (Parameter.mapTokens place)) returnType?
        (body.mapTokens place first)
  | .importNames keyword names source inBraces =>
      .importNames (place keyword) (names.map place) source inBraces
  | .exported keyword statement => .exported (place keyword) (statement.mapTokens place first)

def Block.mapTokens (place first : Token → Token) : Block → Block
  | .mk brace statements => .mk (place brace) (mapTokensOfStmts place first statements)

def mapTokensOfStmts (place first : Token → Token) : List Stmt → List Stmt
  | [] => []
  | statement :: rest => statement.mapTokens place first :: mapTokensOfStmts place first rest

def mapTokensOfHandler (place first : Token → Token) :
    Option (Token × Block) → Option (Token × Block)
  | none => none
  | some (parameter, block) => some (place parameter, block.mapTokens place first)

def mapTokensOfFinalizer (place first : Token → Token) : Option Block → Option Block
  | none => none
  | some block => some (block.mapTokens place first)

end

/-- The expression with every token at another position. -/
abbrev Expr.moved (move : Position → Position) : Expr → Expr := Expr.mapTokens (Token.moved move)

abbrev Parameter.moved (move : Position → Position) : Parameter → Parameter :=
  Parameter.mapTokens (Token.moved move)

abbrev Stmt.moved (move : Position → Position) : Stmt → Stmt :=
  Stmt.mapTokens (Token.moved move) (Token.moved move)

abbrev Block.moved (move : Position → Position) : Block → Block :=
  Block.mapTokens (Token.moved move) (Token.moved move)

/-- The program with every token at another position. -/
def Program.moved (move : Position → Position) (program : Program) : Program :=
  ⟨mapTokensOfStmts (Token.moved move) (Token.moved move) program.statements⟩

/-- The token without its position. -/
def Token.bare (token : Token) : Token := token.moved fun _ => .null

/-- The place of a token that is left out. -/
def Token.absent : Token := ⟨.illegal, "", .null⟩

def Expr.bare (expr : Expr) : Expr := expr.mapTokens Token.bare

def Stmt.bare (statement : Stmt) : Stmt := statement.mapTokens Token.bare fun _ => .absent

def Block.bare (block : Block) : Block := block.mapTokens Token.bare fun _ => .absent

/-- The program without the positions of its tokens, and without the tokens that expression
statements keep. -/
def Program.bare (program : Program) : Program :=
  ⟨mapTokensOfStmts Token.bare (fun _ => .absent) program.statements⟩

section

variable {place first : Token → Token}

theorem mapTokensOfExprs_eq_map (exprs : List Expr) :
    mapTokensOfExprs place exprs = exprs.map (Expr.mapTokens place) := by
  induction exprs with
  | nil => rfl
  | cons expr rest inductionHypothesis =>
      rw [mapTokensOfExprs, inductionHypothesis, List.map_cons]

theorem mapTokensOfEntries_eq_map (entries : List (String × Expr)) :
    mapTokensOfEntries place entries =
      entries.map fun entry => (entry.1, entry.2.mapTokens place) := by
  induction entries with
  | nil => rfl
  | cons entry rest inductionHypothesis =>
      rw [mapTokensOfEntries, inductionHypothesis, List.map_cons]

theorem mapTokensOfStmts_eq_map (statements : List Stmt) :
    mapTokensOfStmts place first statements = statements.map (Stmt.mapTokens place first) := by
  induction statements with
  | nil => rfl
  | cons statement rest inductionHypothesis =>
      rw [mapTokensOfStmts, inductionHypothesis, List.map_cons]

/-- An insertion into entries does not depend on the tokens of their values. -/
theorem mapTokensOfEntries_insert (key : String) (value : Expr) (entries : Entries Expr) :
    mapTokensOfEntries place (entries.insert key value) =
      Entries.insert key (value.mapTokens place) (mapTokensOfEntries place entries) := by
  induction entries with
  | nil => rfl
  | cons entry rest inductionHypothesis =>
      obtain ⟨present, old⟩ := entry
      simp only [Entries.insert, mapTokensOfEntries]
      split
      · rfl
      · rw [mapTokensOfEntries, inductionHypothesis]

theorem mapTokensOfEntries_ofPairs (pairs : List (String × Expr)) :
    mapTokensOfEntries place (Entries.ofPairs pairs) =
      Entries.ofPairs (mapTokensOfEntries place pairs) := by
  have general : ∀ entries : Entries Expr,
      mapTokensOfEntries place
          (pairs.foldl (fun entries pair => Entries.insert pair.1 pair.2 entries) entries) =
        (mapTokensOfEntries place pairs).foldl
          (fun entries pair => Entries.insert pair.1 pair.2 entries)
          (mapTokensOfEntries place entries) := by
    induction pairs with
    | nil => exact fun _ => rfl
    | cons pair rest inductionHypothesis =>
        intro entries
        rw [List.foldl_cons, inductionHypothesis, mapTokensOfEntries_insert]
        rfl
  exact general []

/-! ## The canonical text -/

section

variable (same : ∀ token, (place token).value = token.value)

include same

theorem Expr.WellFormed.text_mapTokens {expr : Expr} (wellFormed : expr.WellFormed) :
    (expr.mapTokens place).text = expr.text := by
  induction wellFormed with
  | identifier | number | string | template | boolean | null =>
      simp [Expr.mapTokens, Expr.text, same]
  | binary _ _ _ _ leftText rightText =>
      simp [Expr.mapTokens, Expr.text, same, leftText, rightText]
  | unary _ _ _ operandText => simp [Expr.mapTokens, Expr.text, same, operandText]
  | pipe _ _ _ leftText rightText => simp [Expr.mapTokens, Expr.text, leftText, rightText]
  | call _ _ _ functionText argumentTexts =>
      simp only [Expr.mapTokens, Expr.text, functionText, mapTokensOfExprs_eq_map, exprTexts_eq_map,
        List.map_map, Function.comp_def]
      rw [List.map_congr_left argumentTexts]
  | member _ _ _ _ objectText => simp [Expr.mapTokens, Expr.text, same, objectText]
  | index _ _ _ objectText positionText =>
      simp [Expr.mapTokens, Expr.text, objectText, positionText]
  | array _ _ elementTexts =>
      simp only [Expr.mapTokens, Expr.text, mapTokensOfExprs_eq_map, exprTexts_eq_map,
        List.map_map, Function.comp_def]
      rw [List.map_congr_left elementTexts]
  | @object _ entries _ _ _ valueTexts =>
      have texts : entries.map (entryText keyText ∘ fun entry =>
          (entry.1, entry.2.mapTokens place)) = entries.map (entryText keyText) :=
        List.map_congr_left fun entry member => by simp [entryText, valueTexts entry member]
      simp only [Expr.mapTokens, Expr.text, mapTokensOfEntries_eq_map, entryTexts_eq_map,
        List.map_map, texts]

theorem typedName_place (name : Token) (type? : Option TypeExpr) :
    typedName (place name) type? = typedName name type? := by
  cases type? <;> simp [typedName, same]

theorem Stmt.WellFormed.text_mapTokens {statement : Stmt} (wellFormed : statement.WellFormed)
    (depth : Nat) : (statement.mapTokens place first).text depth = statement.text depth := by
  induction wellFormed generalizing depth with
  | assignment _ _ valueFormed =>
      simp [Stmt.mapTokens, Stmt.text, typedName_place same, valueFormed.text_mapTokens same]
  | expression valueFormed => simp [Stmt.mapTokens, Stmt.text, valueFormed.text_mapTokens same]
  | block _ _ _ statementTexts =>
      simp only [Stmt.mapTokens, Stmt.text, Block.mapTokens, Block.text, mapTokensOfStmts_eq_map,
        stmtTexts_eq_map, List.map_map, Function.comp_def]
      rw [List.map_congr_left fun statement member => statementTexts statement member (depth + 1)]
  | @conditional _ _ _ alternative? _ conditionFormed _ _ _ blockText alternativeText =>
      simp only [Stmt.mapTokens, Stmt.text] at blockText
      cases alternative? with
      | none =>
          simp [Stmt.mapTokens, Stmt.text, conditionFormed.text_mapTokens same, blockText]
      | some alternative =>
          simp [Stmt.mapTokens, Stmt.text, conditionFormed.text_mapTokens same, blockText,
            alternativeText alternative rfl]
  | whileLoop _ conditionFormed _ blockText =>
      simp only [Stmt.mapTokens, Stmt.text] at blockText
      simp [Stmt.mapTokens, Stmt.text, conditionFormed.text_mapTokens same, blockText]
  | forOf _ _ iterableFormed _ blockText =>
      simp only [Stmt.mapTokens, Stmt.text] at blockText
      simp [Stmt.mapTokens, Stmt.text, same, iterableFormed.text_mapTokens same, blockText]
  | breakLoop _ => rfl
  | continueLoop _ => rfl
  | @returnValue _ value? _ valueFormed =>
      cases value? with
      | none => rfl
      | some value =>
          simp [Stmt.mapTokens, Stmt.text, (valueFormed value rfl).text_mapTokens same]
  | throwValue _ valueFormed => simp [Stmt.mapTokens, Stmt.text, valueFormed.text_mapTokens same]
  | @attempt _ _ handler? finalizer? _ _ _ _ _ _ blockText handlerBlockText finalizerBlockText =>
      simp only [Stmt.mapTokens, Stmt.text] at blockText handlerBlockText finalizerBlockText
      have handlerSame : handlerText depth (mapTokensOfHandler place first handler?) =
          handlerText depth handler? := by
        cases handler? with
        | none => rfl
        | some handler =>
            simp [mapTokensOfHandler, handlerText, same, handlerBlockText handler rfl]
      have finalizerSame : finalizerText depth (mapTokensOfFinalizer place first finalizer?) =
          finalizerText depth finalizer? := by
        cases finalizer? with
        | none => rfl
        | some finalizer =>
            simp [mapTokensOfFinalizer, finalizerText, finalizerBlockText finalizer rfl]
      simp [Stmt.mapTokens, Stmt.text, blockText, handlerSame, finalizerSame]
  | @config _ _ _ entries _ _ _ _ _ _ valuesFormed =>
      have texts : entries.map (entryText id ∘ fun entry => (entry.1, entry.2.mapTokens place)) =
          entries.map (entryText id) :=
        List.map_congr_left fun entry member => by
          simp [entryText, (valuesFormed entry member).text_mapTokens same]
      simp only [Stmt.mapTokens, Stmt.text, same, mapTokensOfEntries_eq_map, List.map_map]
      exact congrArg _ (congrArg _ texts)
  | @tool _ _ parameters returnType? _ _ _ _ _ _ blockText =>
      simp only [Stmt.mapTokens, Stmt.text] at blockText
      have texts : parameters.map (Parameter.text ∘ Parameter.mapTokens place) =
          parameters.map Parameter.text :=
        List.map_congr_left fun parameter _ => typedName_place same _ _
      simp [Stmt.mapTokens, Stmt.text, same, texts, blockText]
  | @importNames _ names _ inBraces _ _ _ _ =>
      have values : names.map (Token.value ∘ place) = names.map Token.value :=
        List.map_congr_left fun name _ => same name
      simp [Stmt.mapTokens, Stmt.text, importedNames, values]
  | exported _ _ _ statementText => simp [Stmt.mapTokens, Stmt.text, statementText]

end

end

/-- A program without its positions has the same canonical text. -/
theorem Program.WellFormed.text_bare {program : Program} (wellFormed : program.WellFormed) :
    program.bare.text = program.text := by
  have same : ∀ token : Token, token.bare.value = token.value := fun _ => rfl
  have texts : ∀ statement ∈ program.statements,
      (statement.mapTokens Token.bare fun _ => .absent).text 0 = statement.text 0 :=
    fun statement member => (wellFormed.statements statement member).text_mapTokens same 0
  simp only [Program.bare, Program.text, mapTokensOfStmts_eq_map, stmtTexts_eq_map, List.map_map,
    Function.comp_def]
  rw [List.map_congr_left texts]

/-! ## Replacement after replacement -/

section

variable (place first after afterFirst : Token → Token)

mutual

theorem Expr.mapTokens_mapTokens : ∀ expr : Expr,
    (expr.mapTokens place).mapTokens after = expr.mapTokens (after ∘ place)
  | .identifier _ | .number .. | .string _ | .template _ | .boolean .. | .null _ => rfl
  | .binary _ left right | .pipe _ left right => by
      simp only [Expr.mapTokens, left.mapTokens_mapTokens, right.mapTokens_mapTokens,
        Function.comp_apply]
  | .unary _ operand => by
      simp only [Expr.mapTokens, operand.mapTokens_mapTokens, Function.comp_apply]
  | .call _ function arguments => by
      simp only [Expr.mapTokens, function.mapTokens_mapTokens,
        mapTokensOfExprs_mapTokensOfExprs arguments, Function.comp_apply]
  | .member _ object _ => by
      simp only [Expr.mapTokens, object.mapTokens_mapTokens, Function.comp_apply]
  | .index _ object position => by
      simp only [Expr.mapTokens, object.mapTokens_mapTokens, position.mapTokens_mapTokens,
        Function.comp_apply]
  | .array _ elements => by
      simp only [Expr.mapTokens, mapTokensOfExprs_mapTokensOfExprs elements, Function.comp_apply]
  | .object _ entries => by
      simp only [Expr.mapTokens, mapTokensOfEntries_mapTokensOfEntries entries, Function.comp_apply]

theorem mapTokensOfExprs_mapTokensOfExprs : ∀ exprs : List Expr,
    mapTokensOfExprs after (mapTokensOfExprs place exprs) = mapTokensOfExprs (after ∘ place) exprs
  | [] => rfl
  | expr :: rest => by
      simp only [mapTokensOfExprs, expr.mapTokens_mapTokens, mapTokensOfExprs_mapTokensOfExprs rest]

theorem mapTokensOfEntries_mapTokensOfEntries : ∀ entries : List (String × Expr),
    mapTokensOfEntries after (mapTokensOfEntries place entries) =
      mapTokensOfEntries (after ∘ place) entries
  | [] => rfl
  | (_, value) :: rest => by
      simp only [mapTokensOfEntries, value.mapTokens_mapTokens,
        mapTokensOfEntries_mapTokensOfEntries rest]

end

theorem Parameter.mapTokens_comp :
    Parameter.mapTokens after ∘ Parameter.mapTokens place = Parameter.mapTokens (after ∘ place) :=
  rfl

mutual

theorem Stmt.mapTokens_mapTokens : ∀ statement : Stmt,
    (statement.mapTokens place first).mapTokens after afterFirst =
      statement.mapTokens (after ∘ place) (afterFirst ∘ first)
  | .assignment _ _ value | .expression _ value | .throwValue _ value => by
      simp only [Stmt.mapTokens, value.mapTokens_mapTokens, Function.comp_apply]
  | .block body => by simp only [Stmt.mapTokens, body.mapTokens_mapTokens]
  | .conditional _ condition consequence none => by
      simp only [Stmt.mapTokens, condition.mapTokens_mapTokens, consequence.mapTokens_mapTokens,
        Function.comp_apply]
  | .conditional _ condition consequence (some alternative) => by
      simp only [Stmt.mapTokens, condition.mapTokens_mapTokens, consequence.mapTokens_mapTokens,
        alternative.mapTokens_mapTokens, Function.comp_apply]
  | .whileLoop _ value body | .forOf _ _ value body => by
      simp only [Stmt.mapTokens, value.mapTokens_mapTokens, body.mapTokens_mapTokens,
        Function.comp_apply]
  | .breakLoop _ | .continueLoop _ | .returnValue _ none => rfl
  | .returnValue _ (some value) => by
      simp only [Stmt.mapTokens, Option.map_some, value.mapTokens_mapTokens, Function.comp_apply]
  | .attempt _ body handler? finalizer? => by
      simp only [Stmt.mapTokens, body.mapTokens_mapTokens,
        mapTokensOfHandler_mapTokensOfHandler handler?,
        mapTokensOfFinalizer_mapTokensOfFinalizer finalizer?, Function.comp_apply]
  | .config _ _ _ entries => by
      simp only [Stmt.mapTokens, mapTokensOfEntries_mapTokensOfEntries, Function.comp_apply]
  | .tool _ _ parameters _ body => by
      simp only [Stmt.mapTokens, body.mapTokens_mapTokens, List.map_map, Parameter.mapTokens_comp,
        Function.comp_apply]
  | .importNames _ names _ _ => by
      simp only [Stmt.mapTokens, List.map_map, Function.comp_apply]
  | .exported _ statement => by
      simp only [Stmt.mapTokens, statement.mapTokens_mapTokens, Function.comp_apply]

theorem Block.mapTokens_mapTokens : ∀ body : Block,
    (body.mapTokens place first).mapTokens after afterFirst =
      body.mapTokens (after ∘ place) (afterFirst ∘ first)
  | .mk _ statements => by
      simp only [Block.mapTokens, mapTokensOfStmts_mapTokensOfStmts statements, Function.comp_apply]

theorem mapTokensOfStmts_mapTokensOfStmts : ∀ statements : List Stmt,
    mapTokensOfStmts after afterFirst (mapTokensOfStmts place first statements) =
      mapTokensOfStmts (after ∘ place) (afterFirst ∘ first) statements
  | [] => rfl
  | statement :: rest => by
      simp only [mapTokensOfStmts, statement.mapTokens_mapTokens,
        mapTokensOfStmts_mapTokensOfStmts rest]

theorem mapTokensOfHandler_mapTokensOfHandler : ∀ handler? : Option (Token × Block),
    mapTokensOfHandler after afterFirst (mapTokensOfHandler place first handler?) =
      mapTokensOfHandler (after ∘ place) (afterFirst ∘ first) handler?
  | none => rfl
  | some (_, body) => by
      simp only [mapTokensOfHandler, body.mapTokens_mapTokens, Function.comp_apply]

theorem mapTokensOfFinalizer_mapTokensOfFinalizer : ∀ finalizer? : Option Block,
    mapTokensOfFinalizer after afterFirst (mapTokensOfFinalizer place first finalizer?) =
      mapTokensOfFinalizer (after ∘ place) (afterFirst ∘ first) finalizer?
  | none => rfl
  | some body => by simp only [mapTokensOfFinalizer, body.mapTokens_mapTokens]

end

end

/-- A program that is moved once more is moved by both moves at once. -/
theorem Program.moved_moved (program : Program) (move onward : Position → Position) :
    (program.moved move).moved onward = program.moved (onward ∘ move) :=
  congrArg Program.mk (mapTokensOfStmts_mapTokensOfStmts _ _ _ _ program.statements)

end AgentScript
