import AgentScript.Source.Position
import AgentScript.Text.Escaped

/-!
Contract: what can be wrong with a script.

Owns: the causes, their names, their messages, and the tip that goes with each.

Does not own: where a fault stands, which is `AgentScript.Diagnostic`.
-/

set_option autoImplicit false

namespace AgentScript

/-- A cause of a diagnostic. The texts that describe tokens are finished wording. -/
inductive Fault where
  | unterminatedLiteral (form : String) (start : Position)
  | unexpectedToken (expected found : String)
  | noPrefixForm (found : String)
  | invalidObjectKey (found : String)
  | invalidConfigKey (found : String)
  | semicolonSeparator
  | sameLineStatement (found : String)
  | missingThrowExpression
  | tryWithoutHandler
  | reservedKeyword (keyword : String)
  | malformedNumber (text : String)
  | invalidExport (found : String)
  | nestingTooDeep (limit : Nat)
deriving DecidableEq, Repr

namespace Fault

/-- The name shown in the heading of an excerpt. -/
def name : Fault → String
  | unterminatedLiteral .. => "UnterminatedLiteral"
  | unexpectedToken .. => "UnexpectedToken"
  | noPrefixForm .. => "NoPrefixParse"
  | invalidObjectKey .. => "InvalidObjectKey"
  | invalidConfigKey .. => "InvalidConfigKey"
  | semicolonSeparator => "SemicolonSeparator"
  | sameLineStatement .. => "SameLineStatement"
  | missingThrowExpression => "MissingThrowExpression"
  | tryWithoutHandler => "TryWithoutHandler"
  | reservedKeyword .. => "ReservedKeyword"
  | malformedNumber .. => "NumberParseError"
  | invalidExport .. => "InvalidExport"
  | nestingTooDeep .. => "NestingTooDeep"

/-- Faults in the text of a token; all others are faults in the order of tokens. -/
def isLexical : Fault → Bool
  | unterminatedLiteral .. => true
  | _ => false

/-- What is wrong, without the place of the diagnostic. -/
def message : Fault → String
  | unterminatedLiteral form start => "unterminated " ++ form ++ " starting at " ++ start.text
  | unexpectedToken expected found => "expected " ++ expected ++ ", got " ++ found
  | noPrefixForm found => "no prefix parse function for " ++ found
  | invalidObjectKey found => "invalid object key: " ++ found
  | invalidConfigKey found => "invalid config key: " ++ found
  | semicolonSeparator =>
      "semicolons are not allowed as statement separators; use newlines instead"
  | sameLineStatement found =>
      "unexpected token " ++ found ++ " on same line as previous statement; expected newline"
  | missingThrowExpression => "throw statement requires an expression"
  | tryWithoutHandler => "try statement must have at least one 'catch' or 'finally' clause"
  | reservedKeyword keyword => "'" ++ keyword ++ "' is a reserved keyword"
  | malformedNumber text => "could not parse " ++ quoted text ++ " as number"
  | invalidExport found => "cannot export " ++ found
  | nestingTooDeep limit => "nesting exceeds the limit of " ++ toString limit ++ " levels"

/-- How to mend it. -/
def tip? : Fault → Option String
  | unterminatedLiteral form _ => some ("close the " ++ form ++ " before the end of the file")
  | unexpectedToken expected found => some ("expected " ++ expected ++ ", got " ++ found)
  | noPrefixForm found => some (found ++ " cannot start an expression")
  | invalidObjectKey _ => some "object keys must be identifiers or strings"
  | invalidConfigKey _ => some "declaration keys must be identifiers or keywords"
  | semicolonSeparator => some "put each statement on its own line"
  | sameLineStatement _ => some "put each statement on its own line"
  | missingThrowExpression => none
  | tryWithoutHandler =>
      some "add a \x60catch (e) \x7b ... \x7d\x60 or \x60finally \x7b ... \x7d\x60 block"
  | reservedKeyword keyword => some ("\x60" ++ keyword ++ "\x60 is reserved for future use")
  | malformedNumber text => some ("invalid number: \x60" ++ text ++ "\x60")
  | invalidExport _ => some "only declarations and assignments can be exported"
  | nestingTooDeep _ => some "move inner parts into separate assignments"

end Fault

end AgentScript
