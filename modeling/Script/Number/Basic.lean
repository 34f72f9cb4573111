/-!
# Numbers

The language has one kind of number, the binary64 floating-point number of IEEE 754. A number is
kept as its bit pattern, so that two numbers are the same exactly when no operation can tell them
apart (up to the payload of a NaN). What the language compares is `Number.equal`, under which a
NaN differs from itself and the two zeros are equal.

A finite number is a sign together with a whole number of *units*, the unit being the smallest
positive number 2^-1074.
-/

namespace Script

/-- A binary64 number, given by its bit pattern. -/
structure Number where
  bits : UInt64
deriving DecidableEq, Repr, Inhabited

namespace Number

/-- The floating-point number with this bit pattern. -/
def toFloat (n : Number) : Float := Float.ofBits n.bits

/-- The bit pattern of a floating-point number. -/
def ofFloat (x : Float) : Number := ⟨x.toBits⟩

/-! ## Arithmetic and comparison

Arithmetic rounds to the nearest number; comparisons with a NaN are false. -/

def add (a b : Number) : Number := ofFloat (a.toFloat + b.toFloat)

def sub (a b : Number) : Number := ofFloat (a.toFloat - b.toFloat)

def mul (a b : Number) : Number := ofFloat (a.toFloat * b.toFloat)

def div (a b : Number) : Number := ofFloat (a.toFloat / b.toFloat)

/-- The number with the other sign: only the sign bit changes. -/
def neg (n : Number) : Number := ⟨n.bits ^^^ 0x8000000000000000⟩

/-- Equality as the language has it: a NaN differs from itself, and zero equals negative zero. -/
def equal (a b : Number) : Bool := a.toFloat == b.toFloat

def less (a b : Number) : Bool := decide (a.toFloat < b.toFloat)

def lessOrEqual (a b : Number) : Bool := decide (a.toFloat ≤ b.toFloat)

/-! ## Sign and magnitude -/

/-- The bits without the sign bit. Read as a whole number they grow with the magnitude of a finite
number. -/
def magnitudeBits (n : Number) : Nat := n.bits.toNat % Nat.pow 2 63

/-- Whether the sign bit is set; it is for negative zero. -/
def negative (n : Number) : Bool := decide (Nat.pow 2 63 ≤ n.bits.toNat)

/-- The magnitude bits of the infinities. Every larger pattern is a NaN. -/
def infinityBits : Nat := 0x7ff * Nat.pow 2 52

/-- Positive infinity, with the greatest exponent and no fraction. -/
def infinity : Number := ⟨0x7ff0000000000000⟩

def isNaN (n : Number) : Bool := decide (infinityBits < n.magnitudeBits)

def isFinite (n : Number) : Bool := decide (n.magnitudeBits < infinityBits)

/--
How many units a finite number with these magnitude bits is away from zero. The lowest exponent is
shared by the subnormal numbers, which lack the leading bit that all other numbers have.
-/
def unitsOfBits (bits : Nat) : Nat :=
  let leading := Nat.pow 2 52
  if bits < leading then bits
  else (leading + bits % leading) * Nat.pow 2 (bits / leading - 1)

/-- The magnitude of a finite number, in units of 2^-1074. -/
def units (n : Number) : Nat := unitsOfBits n.magnitudeBits

/-- The number of units in one, where a unit is the least positive number. Every finite number is a
whole number of units. -/
def unitsPerOne : Nat := Nat.pow 2 1074

end Number

end Script
