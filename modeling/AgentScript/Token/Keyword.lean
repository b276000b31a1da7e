/-!
Contract: the reserved words.

Owns: their enumeration, their spelling, and the look-up of a word.
-/

set_option autoImplicit false

namespace AgentScript

/-- The words that cannot be used as names. -/
inductive Keyword where
  | mcpKw | modelKw | agentKw | toolKw | acpKw
  | ifKw | elseKw | forKw | ofKw | whileKw | breakKw | continueKw
  | tryKw | catchKw | finallyKw | throwKw | returnKw
  | importKw | exportKw | fromKw | parallelKw
deriving DecidableEq, Repr

namespace Keyword

/-- How a keyword is written. -/
def word : Keyword → String
  | mcpKw => "mcp"
  | modelKw => "model"
  | agentKw => "agent"
  | toolKw => "tool"
  | acpKw => "acp"
  | ifKw => "if"
  | elseKw => "else"
  | forKw => "for"
  | ofKw => "of"
  | whileKw => "while"
  | breakKw => "break"
  | continueKw => "continue"
  | tryKw => "try"
  | catchKw => "catch"
  | finallyKw => "finally"
  | throwKw => "throw"
  | returnKw => "return"
  | importKw => "import"
  | exportKw => "export"
  | fromKw => "from"
  | parallelKw => "parallel"

/-- Every keyword, once. -/
def all : List Keyword :=
  [mcpKw, modelKw, agentKw, toolKw, acpKw, ifKw, elseKw, forKw, ofKw, whileKw, breakKw, continueKw,
    tryKw, catchKw, finallyKw, throwKw, returnKw, importKw, exportKw, fromKw, parallelKw]

/-- The keyword with the given spelling. -/
def ofWord? (word : String) : Option Keyword := all.find? fun keyword => keyword.word = word

theorem mem_all (keyword : Keyword) : keyword ∈ all := by
  cases keyword <;> decide

theorem word_of_ofWord? {word : String} {keyword : Keyword} (found : ofWord? word = some keyword) :
    keyword.word = word := by
  simpa using List.find?_some found

theorem ofWord?_word (keyword : Keyword) : ofWord? keyword.word = some keyword := by
  cases keyword <;> decide

end Keyword

end AgentScript
