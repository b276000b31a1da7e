/-!
Contract: the double-precision number nearest to a fraction of natural numbers.

Owns: division rounded to the nearest integer, an exact half to the even neighbour, and the bits
of the nearest double.

The bits are found without a case for each kind of double. Counted in units of the least
subnormal, a double is `mantissa * 2 ^ step`, where a step above zero goes with a mantissa of
53 bits. Its bits are then `step * 2 ^ 52 + mantissa`: the leading bit of the mantissa carries
into the exponent field, and so does a mantissa that rounding has made one bit longer.
-/

set_option autoImplicit false

namespace AgentScript

/-- The integer nearest to `dividend / divisor`; an exact half goes to the even neighbour. -/
def roundedDiv (dividend divisor : Nat) : Nat :=
  let quotient := dividend / divisor
  let doubledRest := 2 * (dividend % divisor)
  if doubledRest < divisor then quotient
  else if divisor < doubledRest then quotient + 1
  else if quotient % 2 = 0 then quotient
  else quotient + 1

namespace Binary64

/-- The number of binary places after the point in units of the least subnormal. -/
def places : Nat := 1074

/-- The number of stored mantissa bits. -/
def mantissaBits : Nat := 52

/-- The bits of positive infinity. -/
def infinity : Nat := 0x7FF0000000000000

/-- The power of two by which the last place of the nearest double exceeds the least subnormal. -/
def step (dividend divisor : Nat) : Nat :=
  Nat.log2 ((dividend <<< places) / divisor) - mantissaBits

/-- The bits of the double nearest to `dividend / divisor`; too large a value gives infinity. -/
def ofRatio (dividend divisor : Nat) : Nat :=
  let step := step dividend divisor
  let mantissa := roundedDiv (dividend <<< places) (divisor <<< step)
  min ((step <<< mantissaBits) + mantissa) infinity

end Binary64

end AgentScript
