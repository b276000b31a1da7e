import AgentScript.Charset.Alphabetic
import AgentScript.Charset.Numeric
import AgentScript.Charset.Extending
import AgentScript.Charset.Unprintable

/-!
Contract: the classes of characters that scripts and messages are read and written by.

Owns:
- letters, digits of any script, ASCII digits and hexadecimal digits;
- the white space between tokens and the wider white space that trimming removes;
- control characters, characters without a mark of their own, and combining marks.

The wide classes follow the Unicode property tables beside this module.
-/

set_option autoImplicit false

namespace AgentScript

/-- Characters with the Unicode property Alphabetic. -/
def isAlphabetic (char : Char) : Bool := alphabeticRanges.covers char.toNat

/-- Characters of the Unicode categories Nd, Nl and No. -/
def isNumeric (char : Char) : Bool := numericRanges.covers char.toNat

/-- The halfwidth sound marks of katakana, the only letters among the characters that extend the one
before them. They take a place of their own, so they can be seen wherever they stand. -/
def spacingExtendingRanges : RangeTable := [(0xFF9E, 0xFF9F)]

/-- Characters that are drawn onto the character before them, such as accents. -/
def isCombining (char : Char) : Bool :=
  extendingRanges.covers char.toNat && !spacingExtendingRanges.covers char.toNat

/-- Characters that show as themselves in a message. -/
def isPrintable (char : Char) : Bool := !unprintableRanges.covers char.toNat

/-- Characters of the Unicode category Cc. -/
def isControl (char : Char) : Bool := char.toNat < 0x20 || (0x7F ≤ char.toNat && char.toNat ≤ 0x9F)

/-- Code points with the Unicode property White_Space. -/
def whiteSpaceRanges : RangeTable :=
  [(0x9, 0xD), (0x20, 0x20), (0x85, 0x85), (0xA0, 0xA0), (0x1680, 0x1680), (0x2000, 0x200A),
   (0x2028, 0x2029), (0x202F, 0x202F), (0x205F, 0x205F), (0x3000, 0x3000)]

/-- White space in the wide sense: what trimming removes. -/
def isWhiteSpace (char : Char) : Bool := whiteSpaceRanges.covers char.toNat

/-- White space in the narrow sense: what may separate tokens. -/
def isBlank (char : Char) : Bool := char = ' ' || char = '\t' || char = '\r' || char = '\n'

/-- The characters that indent a line. -/
def isIndent (char : Char) : Bool := char = ' ' || char = '\t'

/-- The ten digits that numbers are written with. -/
def isDigit (char : Char) : Bool := '0' ≤ char && char ≤ '9'

/-- The value of a hexadecimal digit in either case. -/
def hexDigit? (char : Char) : Option Nat :=
  if isDigit char then some (char.toNat - 0x30)
  else if 'a' ≤ char && char ≤ 'f' then some (char.toNat - 0x57)
  else if 'A' ≤ char && char ≤ 'F' then some (char.toNat - 0x37)
  else none

/-- Characters that a word may start with. -/
def startsWord (char : Char) : Bool := isAlphabetic char || char = '_'

/-- Characters that a word may go on with. -/
def continuesWord (char : Char) : Bool := isAlphabetic char || isNumeric char || char = '_'

/-! ## The tables are in order, so that looking a character up in them misses no range -/

theorem alphabeticRanges_ordered : alphabeticRanges.orderedFrom 0 = true := by decide +kernel

theorem numericRanges_ordered : numericRanges.orderedFrom 0 = true := by decide +kernel

theorem extendingRanges_ordered : extendingRanges.orderedFrom 0 = true := by decide +kernel

theorem unprintableRanges_ordered : unprintableRanges.orderedFrom 0 = true := by decide +kernel

theorem whiteSpaceRanges_ordered : whiteSpaceRanges.orderedFrom 0 = true := by decide +kernel

theorem isAlphabetic_iff (char : Char) :
    isAlphabetic char = true ↔
      ∃ range ∈ alphabeticRanges, range.1 ≤ char.toNat ∧ char.toNat ≤ range.2 :=
  RangeTable.covers_iff_of_ordered alphabeticRanges_ordered char.toNat

/-! ## Classes inside one another -/

theorem isWhiteSpace_of_isBlank {char : Char} (blank : isBlank char = true) :
    isWhiteSpace char = true := by
  simp only [isBlank, Bool.or_eq_true, decide_eq_true_eq] at blank
  rcases blank with ((rfl | rfl) | rfl) | rfl <;> decide

theorem toNat_lt_of_isControl {char : Char} (control : isControl char = true) :
    char.toNat < 160 := by
  simp only [isControl, Bool.or_eq_true, Bool.and_eq_true, decide_eq_true_eq] at control
  omega

theorem isBlank_of_isIndent {char : Char} (indent : isIndent char = true) :
    isBlank char = true := by
  simp only [isIndent, isBlank, Bool.or_eq_true] at indent ⊢
  exact .inl (.inl indent)

theorem continuesWord_of_startsWord {char : Char} (starts : startsWord char = true) :
    continuesWord char = true := by
  simp only [startsWord, continuesWord, Bool.or_eq_true] at starts ⊢
  rcases starts with alphabetic | underscore
  · exact .inl (.inl alphabetic)
  · exact .inr underscore

end AgentScript
