import AgentScript.Charset.Classes
import AgentScript.Text.Escaped

/-!
Contract: escapes inside quoted strings and templates, read and written.

Owns:
- `unescape`, the value of the text between two quotes;
- `escape`, the text that stands for a value between two quotes;
- the stand-in for an escaped dollar sign, which keeps it apart from one that opens an
  interpolation, and its replacement in the written text of a template.

Does not own: where a literal ends, which is decided before its text is read.
-/

set_option autoImplicit false

namespace AgentScript

/-- Stands in a template's value for a dollar sign written with a backslash. -/
def escapedDollar : List Char := "\uE000ESCAPED_DOLLAR\uE000".toList

/-- The character with the given code point, if there is one. -/
def scalar? (code : Nat) : Option Char :=
  if valid : code.isValidChar then some (Char.ofNatAux code valid) else none

/-- The character named by four hexadecimal digits. -/
def codeEscape? (first second third fourth : Char) : Option Char := do
  let first ← hexDigit? first
  let second ← hexDigit? second
  let third ← hexDigit? third
  let fourth ← hexDigit? fourth
  scalar? (((first * 16 + second) * 16 + third) * 16 + fourth)

/-- What a backslash followed by one character stands for. A backslash that escapes nothing is
part of the text. -/
def simpleEscape (template : Bool) (char : Char) : List Char :=
  if char = 'n' then ['\n']
  else if char = 't' then ['\t']
  else if char = 'r' then ['\r']
  else if char = '\\' then ['\\']
  else if char = '\x22' then ['\x22']
  else if char = '\x27' then ['\x27']
  else if template && char = '\x60' then ['\x60']
  else if template && char = '$' then escapedDollar
  else ['\\', char]

/-- The value of the text between the quotes of a string or, with more escapes, of a template.
A backslash at the very end is kept. -/
def unescape (template : Bool) : List Char → List Char
  | '\\' :: 'u' :: first :: second :: third :: fourth :: rest =>
      match codeEscape? first second third fourth with
      | some char => char :: unescape template rest
      | none => '\\' :: 'u' :: unescape template (first :: second :: third :: fourth :: rest)
  | '\\' :: char :: rest => simpleEscape template char ++ unescape template rest
  | char :: rest => char :: unescape template rest
  | [] => []

/-- Four hexadecimal digits, zeros first. -/
def fourHexDigits (char : Char) : List Char :=
  let digits := hexDigits char
  List.replicate (4 - digits.length) '0' ++ digits

/-- One character of a value as it is written between two quotes. -/
def escapeChar (quote char : Char) : List Char :=
  if char = '\\' then ['\\', '\\']
  else if char = '\n' then ['\\', 'n']
  else if char = '\t' then ['\\', 't']
  else if char = '\r' then ['\\', 'r']
  else if char = quote then ['\\', quote]
  else if isControl char then '\\' :: 'u' :: fourHexDigits char
  else [char]

/-- A value as it is written between two quotes. -/
def escape (quote : Char) (value : List Char) : List Char := value.flatMap (escapeChar quote)

/-- Writes `\$` for every stand-in, from left to right. The first argument counts characters of
a stand-in that are still to be passed over. -/
def restoreDollarsFrom : Nat → List Char → List Char
  | _, [] => []
  | skip + 1, _ :: rest => restoreDollarsFrom skip rest
  | 0, char :: rest =>
      if escapedDollar.isPrefixOf (char :: rest) then
        '\\' :: '$' :: restoreDollarsFrom (escapedDollar.length - 1) rest
      else char :: restoreDollarsFrom 0 rest

/-- Writes `\$` for every stand-in. -/
def restoreDollars (text : List Char) : List Char := restoreDollarsFrom 0 text

/-- A string literal with the given value. -/
def stringLiteral (value : String) : String :=
  String.ofList ('\x22' :: escape '\x22' value.toList ++ ['\x22'])

/-- A template literal with the given value. -/
def templateLiteral (value : String) : String :=
  String.ofList ('\x60' :: restoreDollars (escape '\x60' value.toList) ++ ['\x60'])

end AgentScript
