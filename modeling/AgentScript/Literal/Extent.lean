/-!
Contract: where a quoted literal ends.

Owns: the text of a literal up to its closing quote, for literals closed by one quote and for
those closed by three, and whether the closing quote was found.
-/

set_option autoImplicit false

namespace AgentScript

/-- The text of a literal after its opening quote, and whether a quote closes it. -/
structure Extent where
  body : List Char
  closed : Bool
deriving DecidableEq, Repr

namespace Extent

/-- The extent of a body that goes on for one character more. -/
def cons (char : Char) (extent : Extent) : Extent := { extent with body := char :: extent.body }

/-- The body ends at the first quote that no backslash escapes. A backslash escapes the character
after it, whatever that is. -/
def single (quote : Char) : List Char → Extent
  | [] => ⟨[], false⟩
  | [char] => if char = quote then ⟨[], true⟩ else ⟨[char], false⟩
  | char :: next :: rest =>
      if char = quote then ⟨[], true⟩
      else if char = '\\' then cons char (cons next (single quote rest))
      else cons char (single quote (next :: rest))

/-- The body ends at the first three quotes in a row. There are no escapes. -/
def triple (quote : Char) : List Char → Extent
  | [] => ⟨[], false⟩
  | char :: rest =>
      if [quote, quote, quote].isPrefixOf (char :: rest) then ⟨[], true⟩
      else cons char (triple quote rest)

end Extent

end AgentScript
