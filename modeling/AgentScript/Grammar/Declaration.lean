import AgentScript.Grammar.Expression

/-!
Contract: reading declarations.

Owns: configured declarations, tools, imports and exports.
-/

set_option autoImplicit false

namespace AgentScript.Production

/-- What the keyword of a configured declaration declares. -/
def configKind (keyword : Kind) : ConfigKind :=
  if keyword = .keyword .mcpKw then .mcp
  else if keyword = .keyword .modelKw then .model
  else .agent

/-- A key of a configured declaration: a name or a keyword. -/
def configKey : Production String := do
  let state ← get
  if state.kind = .endOfInput then failUnexpected Kind.closeCurly.text
  else if state.kind.namesMember then return (← take).value
  else failHere (.invalidConfigKey state.current.describe)

/-- What may follow a value of a configured declaration. -/
def configListing : Listing := ⟨.closeCurly, true, "',' or newline between config entries"⟩

/-- The entries of a configured declaration, in curly brackets. -/
def configBody (inner : Level) : Production (Entries Expr) := do
  let _ ← expect .openCurly
  return Entries.ofPairs (← listOf configListing (keyed inner configKey))

/-- A declaration that is a name with entries. -/
def configDeclaration (inner : Level) : Production Stmt := do
  let keyword ← take
  let name ← expectAs .identifier (keyword.value ++ " name")
  let entries ← configBody inner
  return .config (configKind keyword.kind) keyword name entries

/-- A parameter of a tool. -/
def parameter : Production Parameter := do
  let name ← expectAs .identifier "parameter name"
  return ⟨name, ← declaredType?⟩

/-- What may follow a parameter. -/
def parameterListing : Listing := ⟨.closeParen, false, "',' or ')' in parameter list"⟩

/-- A tool with its parameters and body. -/
def toolDeclaration (inner : Level) : Production Stmt := do
  let keyword ← take
  let name ← expectAs .identifier "tool name"
  let _ ← expect .openParen
  let parameters ← listOf parameterListing parameter
  let returnType? ← declaredType?
  let body ← inner.block
  return .tool keyword name parameters returnType? body

/-- A name that an import binds. -/
def importedName : Production Token := expectAs .identifier "imported name"

/-- Whether a comma is ahead that another name has to follow. -/
def moreNames (state : State) : Bool := state.kind = .comma && state.peek.kind ≠ .closeCurly

/-- Imported names in curly brackets: at least one, and a comma may follow the last. -/
def bracedNames : Production (List Token) := do
  let _ ← expect .openCurly
  let first ← importedName
  let rest ← manyWhile moreNames do
    let _ ← take
    importedName
  passIf .comma
  let _ ← expect .closeCurly
  return first :: rest

/-- The names of an import, and whether they stand in curly brackets. -/
def importedNames : Production (List Token × Bool) := do
  if (← currentKind) = .openCurly then return (← bracedNames, true)
  else return ([← importedName], false)

/-- An import of one name, or of several in curly brackets. -/
def importDeclaration : Production Stmt := do
  let keyword ← take
  let (names, inBraces) ← importedNames
  let _ ← expect (.keyword .fromKw)
  let source ← expectAs .string "module path string"
  return .importNames keyword names source.value inBraces

/-- An exported declaration or assignment. -/
def exportDeclaration (inner : Level) : Production Stmt := do
  let keyword ← take
  let first := (← get).current
  let statement ← inner.statement
  if statement.isExportable then return .exported keyword statement
  else throw ⟨.invalidExport first.describe, first.position⟩

end AgentScript.Production
