import AgentScript.Token.Keyword

/-!
Contract: the kinds of tokens.

Owns: their enumeration, the wording of a kind in messages, which kinds say less than their token's
text, and how brackets pair.
-/

set_option autoImplicit false

namespace AgentScript

/-- The kind of a token. -/
inductive Kind where
  | illegal | endOfInput | comment
  | identifier | number | string | template
  | openBracket | closeBracket | openCurly | closeCurly | openParen | closeParen
  | assign | equals | not | notEquals
  | less | lessEquals | greater | greaterEquals
  | or | and | nullish | pipe
  | dot | semicolon | colon | comma
  | plus | dash | slash | star | percent
  | keyword (keyword : Keyword)
deriving DecidableEq, Repr

namespace Kind

/-- The wording of a kind in messages. -/
def text : Kind → String
  | illegal => "illegal"
  | endOfInput => "end of input"
  | comment => "comment"
  | identifier => "identifier"
  | number => "number"
  | string => "string"
  | template => "template literal"
  | openBracket => "'['"
  | closeBracket => "']'"
  | openCurly => "'\x7b'"
  | closeCurly => "'\x7d'"
  | openParen => "'('"
  | closeParen => "')'"
  | assign => "'='"
  | equals => "'=='"
  | not => "'!'"
  | notEquals => "'!='"
  | less => "'<'"
  | lessEquals => "'<='"
  | greater => "'>'"
  | greaterEquals => "'>='"
  | or => "'||'"
  | and => "'&&'"
  | nullish => "'??'"
  | pipe => "'|'"
  | dot => "'.'"
  | semicolon => "';'"
  | colon => "':'"
  | comma => "','"
  | plus => "'+'"
  | dash => "'-'"
  | slash => "'/'"
  | star => "'*'"
  | percent => "'%'"
  | keyword word => "keyword '" ++ word.word ++ "'"

/-- Whether a token of this kind is a reserved word. -/
def isKeyword : Kind → Bool
  | keyword _ => true
  | _ => false

/-- Whether the text of a token says more than its kind. -/
def carriesText : Kind → Bool
  | illegal | identifier | number | string | template => true
  | _ => false

/-- Whether a token of this kind can name a property or a setting. -/
def namesMember (kind : Kind) : Bool := kind = identifier || kind.isKeyword

/-- Whether a token of this kind opens a bracket. -/
def isOpener : Kind → Bool
  | openCurly | openParen | openBracket => true
  | _ => false

/-- The opening bracket that a closing one answers. -/
def opener? : Kind → Option Kind
  | closeCurly => some openCurly
  | closeParen => some openParen
  | closeBracket => some openBracket
  | _ => none

end Kind

end AgentScript
