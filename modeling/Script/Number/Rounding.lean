import Script.Number.Basic

/-!
# Rounding a ratio to a number

A ratio of natural numbers is rounded to the nearest number, a tie going to the number whose last
bit is zero. The computation is exact: it uses natural numbers only.
-/

namespace Script

/-- The integer nearest to `num / den`; halfway between two, the even one. -/
def roundHalfEven (num den : Nat) : Nat :=
  let quotient := num / den
  let twice := 2 * (num % den)
  if twice < den then quotient
  else if den < twice then quotient + 1
  else if quotient % 2 = 0 then quotient else quotient + 1

namespace Number

/--
How many of the low bits of a magnitude of this many units are lost: a number has room for 53
significant bits.
-/
def droppedBits (units : Nat) : Nat := units.log2 - 52

/--
The magnitude bits of the number nearest to `num / den`. The leading one of the rounded
significand adds itself to the exponent field, which also carries a significand that was rounded
up to the next power of two; what exceeds every finite number becomes infinity.
-/
def nearestBits (num den : Nat) : Nat :=
  let scaled := num * unitsPerOne
  let dropped := droppedBits (scaled / den)
  min (dropped * Nat.pow 2 52 + roundHalfEven scaled (den * Nat.pow 2 dropped)) infinityBits

/-- The non-negative number nearest to `num / den`. -/
def ofRatio (num den : Nat) : Number := ⟨(nearestBits num den).toUInt64⟩

end Number

end Script
