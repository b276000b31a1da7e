import AgentScript.Charset.Classes

/-!
Contract: text made safe to stand inside a message.

Owns: the two escaped forms of a text. `quoted` puts it between double quotes for token listings;
`described` leaves the quoting to the caller, who puts it between single quotes.

Both write a backslash form for NUL, tab, carriage return, line feed, backslash and double quote,
and a hexadecimal form for characters that have no mark of their own. They differ in two points,
given by `EscapeStyle`: whether a single quote is escaped, and whether a combining mark inside the
text is.
-/

set_option autoImplicit false

namespace AgentScript

/-- What the escaping of one character depends on besides the character. -/
structure EscapeStyle where
  escapesSingleQuote : Bool
  escapesCombining : Bool
deriving DecidableEq, Repr

/-- The lower-case hexadecimal digits of a character's code point, without leading zeros. -/
def hexDigits (char : Char) : List Char := Nat.toDigits 16 char.toNat

/-- The form `\u` with the code point in curly brackets. -/
def bracedCode (char : Char) : List Char := '\\' :: 'u' :: '\x7b' :: hexDigits char ++ ['\x7d']

namespace EscapeStyle

/-- One character, escaped where it has to be. -/
def escape (style : EscapeStyle) (char : Char) : List Char :=
  if char = '\x00' then ['\\', '0']
  else if char = '\t' then ['\\', 't']
  else if char = '\r' then ['\\', 'r']
  else if char = '\n' then ['\\', 'n']
  else if char = '\\' then ['\\', '\\']
  else if char = '\x22' then ['\\', '\x22']
  else if char = '\x27' && style.escapesSingleQuote then ['\\', '\x27']
  else if style.escapesCombining && isCombining char then bracedCode char
  else if isPrintable char then [char]
  else bracedCode char

end EscapeStyle

/-- A text between double quotes. Single quotes stay, every combining mark is escaped. -/
def quoted (text : String) : String :=
  String.ofList ('\x22' :: text.toList.flatMap (EscapeStyle.escape ⟨false, true⟩) ++ ['\x22'])

/-- A text to be put between single quotes. A combining mark is escaped only where it would
join the quote, that is at the start. -/
def described (text : String) : String :=
  String.ofList (match text.toList with
    | [] => []
    | first :: rest =>
        EscapeStyle.escape ⟨true, true⟩ first ++ rest.flatMap (EscapeStyle.escape ⟨true, false⟩))

end AgentScript
