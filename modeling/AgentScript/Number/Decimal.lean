import AgentScript.Charset.Classes
import AgentScript.Number.Binary64

/-!
Contract: numbers as scripts write them.

Owns: the extent of a number at the start of a text, its exact decimal value, and the double
nearest to that value.

A number is a run of digits, and may go on with a point and another run. A point that no digit
follows is not part of it.
-/

set_option autoImplicit false

namespace AgentScript

/-- A natural number over a power of ten. -/
structure Decimal where
  digits : Nat
  scale : Nat
deriving DecidableEq, Repr

/-- The fraction at the start of a text: a point and at least one digit, or nothing. -/
def fractionText : List Char → List Char
  | '.' :: rest =>
      match rest.takeWhile isDigit with
      | [] => []
      | digits => '.' :: digits
  | _ => []

/-- The number that a text starts with, as far as it goes. -/
def numberText (text : List Char) : List Char :=
  let whole := text.takeWhile isDigit
  whole ++ fractionText (text.drop whole.length)

/-- The value of a run of digits. -/
def digitsValue (digits : List Char) : Nat :=
  digits.foldl (fun value digit => value * 10 + (digit.toNat - 0x30)) 0

namespace Decimal

/-- The value of a text that is one number and nothing else. -/
def ofText? (text : List Char) : Option Decimal :=
  let whole := text.takeWhile isDigit
  let fraction := fractionText (text.drop whole.length)
  if whole.isEmpty || whole ++ fraction ≠ text then none
  else some ⟨digitsValue (whole ++ fraction.drop 1), fraction.length - 1⟩

/-- The bits of the double nearest to a decimal. -/
def binary64 (decimal : Decimal) : Nat := Binary64.ofRatio decimal.digits (Nat.pow 10 decimal.scale)

end Decimal

end AgentScript
