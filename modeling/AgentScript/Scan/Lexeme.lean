import AgentScript.Literal.Escapes
import AgentScript.Literal.Extent
import AgentScript.Number.Decimal
import AgentScript.Text.Dedent
import AgentScript.Token.Kind

/-!
Contract: the token that a text starts with.

Owns: which characters form the token, its kind, its value, and whether its closing quote is
missing.

Every token has at least one character, and its characters are a leading part of the text: a lexeme
only says how many more than the first belong to it. The value of a string is the decoded text
between its quotes, or the dedented text between three quotes. Every other value is the token's own
characters.
-/

set_option autoImplicit false

namespace AgentScript

/-- The forms of literals that have to be closed. -/
inductive LiteralForm where
  | string
  | tripleQuoted
  | template
deriving DecidableEq, Repr

/-- The wording of a form in messages. -/
def LiteralForm.text : LiteralForm → String
  | string => "string"
  | tripleQuoted => "triple-quoted string"
  | template => "template literal"

/-- A token read from the start of a text, with the number of characters after the first. -/
structure Lexeme where
  kind : Kind
  value : List Char
  more : Nat
  unterminated? : Option LiteralForm
deriving DecidableEq, Repr

/-- The operators of two characters. -/
def doubleOperator? (first second : Char) : Option Kind :=
  if first = '=' && second = '=' then some .equals
  else if first = '!' && second = '=' then some .notEquals
  else if first = '<' && second = '=' then some .lessEquals
  else if first = '>' && second = '=' then some .greaterEquals
  else if first = '&' && second = '&' then some .and
  else if first = '|' && second = '|' then some .or
  else if first = '?' && second = '?' then some .nullish
  else none

/-- The operators, brackets and separators of one character. -/
def singleOperator? (char : Char) : Option Kind :=
  if char = '=' then some .assign
  else if char = '!' then some .not
  else if char = '<' then some .less
  else if char = '>' then some .greater
  else if char = '|' then some .pipe
  else if char = '+' then some .plus
  else if char = '-' then some .dash
  else if char = '*' then some .star
  else if char = '/' then some .slash
  else if char = '%' then some .percent
  else if char = '\x7b' then some .openCurly
  else if char = '\x7d' then some .closeCurly
  else if char = '[' then some .openBracket
  else if char = ']' then some .closeBracket
  else if char = '(' then some .openParen
  else if char = ')' then some .closeParen
  else if char = ',' then some .comma
  else if char = ':' then some .colon
  else if char = ';' then some .semicolon
  else if char = '.' then some .dot
  else none

/-- The kind of a word: its keyword, or a name. -/
def wordKind (word : List Char) : Kind :=
  match Keyword.ofWord? (String.ofList word) with
  | some keyword => .keyword keyword
  | none => .identifier

/-- The word at the start of a text. -/
def wordText (first : Char) (rest : List Char) : List Char := first :: rest.takeWhile continuesWord

namespace Lexeme

/-- A lexeme whose value is its own characters. -/
def plain (kind : Kind) (text : List Char) : Lexeme :=
  { kind, value := text, more := text.length - 1, unterminated? := none }

/-- A literal in a closing quote of the given width, after `opening` further quote characters. -/
def delimited (kind : Kind) (form : LiteralForm) (opening closing : Nat) (extent : Extent)
    (value : List Char) : Lexeme :=
  { kind, value,
    more := opening + extent.body.length + (if extent.closed then closing else 0),
    unterminated? := if extent.closed then none else some form }

/-- A string that opens with one quote, or with three. -/
def readString (quote : Char) (rest : List Char) : Lexeme :=
  if [quote, quote].isPrefixOf rest then
    let extent := Extent.triple quote (rest.drop 2)
    delimited .string .tripleQuoted 2 3 extent (dedent extent.body)
  else
    let extent := Extent.single quote rest
    delimited .string .string 0 1 extent (unescape false extent.body)

/-- A template. -/
def readTemplate (rest : List Char) : Lexeme :=
  let extent := Extent.single '\x60' rest
  delimited .template .template 0 1 extent (unescape true extent.body)

/-- The lexeme at the start of a text that starts with `first`. -/
def read (first : Char) (rest : List Char) : Lexeme :=
  match rest.head?.bind (doubleOperator? first) with
  | some kind => plain kind (first :: rest.take 1)
  | none =>
    match singleOperator? first with
    | some kind => plain kind [first]
    | none =>
      if first = '\x22' || first = '\x27' then readString first rest
      else if first = '\x60' then readTemplate rest
      else if isDigit first then plain .number (numberText (first :: rest))
      else if startsWord first then
        let word := wordText first rest
        plain (wordKind word) word
      else plain .illegal [first]

end Lexeme

end AgentScript
