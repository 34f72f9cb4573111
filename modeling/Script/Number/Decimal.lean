import Script.Number.Rounding

/-!
# Decimal texts of numbers

A non-negative decimal is a natural number with some of its digits after the point. Numerals in a
source are decimals, and so is the text of every finite number: the fewest digits that read back
as the same number, never with an exponent.
-/

namespace Script

/-- The decimal `coefficient / 10 ^ places`, which has `places` digits after the point. -/
structure Decimal where
  coefficient : Nat
  places : Nat
deriving DecidableEq, Repr

namespace Decimal

/-! ## Reading -/

def isDigit (c : Char) : Bool := decide ('0' ≤ c) && decide (c ≤ '9')

def digitValue (c : Char) : Nat := c.toNat - '0'.toNat

/-- The natural number that a row of digits writes. -/
def digitsValue (digits : List Char) : Nat :=
  digits.foldl (fun value c => 10 * value + digitValue c) 0

/-- Reads digits with an optional point among them. -/
def ofText (text : List Char) : Decimal :=
  let whole := text.takeWhile (· ≠ '.')
  let fraction := (text.dropWhile (· ≠ '.')).drop 1
  ⟨digitsValue (whole ++ fraction), fraction.length⟩

/-- The number nearest to a decimal, as a literal of that text is read. -/
def nearest (d : Decimal) : Number := .ofRatio d.coefficient (Nat.pow 10 d.places)

/-! ## Writing -/

/-- The digits of `n`, at least `width` of them. -/
def paddedDigits (width n : Nat) : List Char :=
  let digits := Nat.toDigits 10 n
  List.replicate (width - digits.length) '0' ++ digits

/-- The digits before the point, and those after it if there are any. -/
def text (d : Decimal) : List Char :=
  let one := Nat.pow 10 d.places
  let whole := Nat.toDigits 10 (d.coefficient / one)
  if d.places = 0 then whole else whole ++ '.' :: paddedDigits d.places (d.coefficient % one)

/-- `steps` times at most, drops a last digit after the point that is zero. -/
def trimSteps : Nat → Nat → Nat → Decimal
  | 0, coefficient, places => ⟨coefficient, places⟩
  | _ + 1, coefficient, 0 => ⟨coefficient, 0⟩
  | steps + 1, coefficient, places + 1 =>
    if coefficient % 10 = 0 then trimSteps steps (coefficient / 10) places
    else ⟨coefficient, places + 1⟩

/-- The same decimal without zeros at the end of its fraction. -/
def trim (d : Decimal) : Decimal := trimSteps d.places d.coefficient d.places

/-- The decimal `coefficient * 10 ^ exponent`. -/
def scaled (coefficient : Nat) (exponent : Int) : Decimal :=
  match exponent with
  | .ofNat e => ⟨coefficient * Nat.pow 10 e, 0⟩
  | .negSucc e => trim ⟨coefficient, e + 1⟩

end Decimal

namespace Number

/--
The decimal magnitude of `units` units: the exponent `e` with `10 ^ (e - 1) ≤ units < 10 ^ e`, for
a number that is not zero.
-/
def decimalExponent (units : Nat) : Int :=
  if unitsPerOne ≤ units then (Nat.toDigits 10 (units / unitsPerOne)).length
  else 1 - (Nat.toDigits 10 ((unitsPerOne - 1) / units)).length

/-- Every finite number is a decimal with at most 1074 digits after the point. -/
def exactDecimal (units : Nat) : Decimal := ⟨units * Nat.pow 5 1074, 1074⟩

/--
Of the two multiples of `10 ^ exponent` around the magnitude of `n`, the one that reads back as
`n`; if both do, the nearer, and the upper one when they are equally near.
-/
def neighbour? (n : Number) (exponent : Int) : Option Decimal :=
  let num := n.units * Nat.pow 10 (-exponent).toNat
  let den := unitsPerOne * Nat.pow 10 exponent.toNat
  let below := num / den
  let lower := Decimal.scaled below exponent
  let upper := Decimal.scaled (below + 1) exponent
  if lower.nearest = n then
    if upper.nearest = n ∧ den ≤ 2 * (num % den) then some upper else some lower
  else if upper.nearest = n then some upper
  else none

/-- The first of `count` grids that has a neighbour of `n` reading back as `n`, each grid ten
times as fine as the one before. -/
def shortestFrom (n : Number) : Nat → Int → Option Decimal
  | 0, _ => none
  | count + 1, exponent =>
    (neighbour? n exponent).orElse fun _ => shortestFrom n count (exponent - 1)

/--
A decimal with as few digits as possible that reads back as `n`, a finite number without a sign.
Seventeen digits always do.
-/
def shortest (n : Number) : Decimal :=
  if n.units = 0 then ⟨0, 0⟩
  else (shortestFrom n 17 (decimalExponent n.units - 1)).getD (exactDecimal n.units).trim

/-- The number without its sign, which is written apart. -/
def magnitude (n : Number) : Number := ⟨n.magnitudeBits.toUInt64⟩

/-- The text of a number as the language shows it. -/
def text (n : Number) : List Char :=
  if n.isNaN then "NaN".toList
  else
    let sign := if n.negative then ['-'] else []
    if n.isFinite then sign ++ n.magnitude.shortest.text else sign ++ "inf".toList

instance : ToString Number := ⟨fun n => String.ofList n.text⟩

end Number

end Script
