/-!
Finite binary64 numbers. Each of them is a whole multiple of the smallest positive one, `2 ^ -1074`,
so a number is kept as a sign and that multiple, and comparing numbers is comparing integers.
-/

namespace LinkedDocs

structure Double where
  negative : Bool
  /-- The magnitude in units of `2 ^ -1074`. -/
  units : Nat
deriving DecidableEq, Repr, Inhabited

namespace Double

/-- The quotient rounded to the nearest integer, a half going to the even neighbour. -/
def roundDiv (numerator denominator : Nat) : Nat :=
  let quotient := numerator / denominator
  let remainder := numerator % denominator
  if 2 * remainder < denominator then quotient
  else if denominator < 2 * remainder then quotient + 1
  else quotient + quotient % 2

/-- Units of the number `1`. -/
def unitScale : Nat := Nat.pow 2 1074

/-- Units of the first power of two that is too large to be represented. -/
def unitLimit : Nat := Nat.pow 2 2098

/-- The units nearest to a quotient of units that keep 53 significant bits. -/
def roundUnits (numerator denominator : Nat) : Nat :=
  let bit := Nat.pow 2 ((numerator / denominator).log2 - 52)
  roundDiv numerator (denominator * bit) * bit

/-- The number nearest to a quotient of units, unless it is out of range. -/
def ofUnits? (negative : Bool) (numerator denominator : Nat) : Option Double :=
  let units := roundUnits numerator denominator
  if units < unitLimit then some ⟨negative, units⟩ else none

def zero : Double := ⟨false, 0⟩

/-- The number nearest to an integer of at most 64 bits. -/
def ofInt (value : Int) : Double :=
  ⟨value < 0, roundUnits value.natAbs 1 * unitScale⟩

/-- The signed multiple of the smallest positive number; both zeros have the multiple `0`. -/
def multiple (number : Double) : Int :=
  if number.negative then -(number.units : Int) else number.units

/-- Whether two numbers have one value; the two zeros do. -/
def sameValue (left right : Double) : Bool :=
  left.multiple == right.multiple

def order (left right : Double) : Ordering :=
  compare left.multiple right.multiple

/-- The magnitude nearest to a power of ten. -/
def powerOfTen (exponent : Nat) : Nat :=
  roundUnits (Nat.pow 10 exponent) 1 * unitScale

/-- The largest power of ten that a decimal is scaled by in one step. -/
def largestPower : Nat := 308

/-- Divides units by a power of ten, rounding after each step of at most `largestPower`. -/
def scaleDown (units exponent : Nat) : Nat :=
  if exponent ≤ largestPower then
    roundUnits (units * unitScale) (powerOfTen exponent)
  else if units = 0 then
    0
  else
    scaleDown (roundUnits (units * unitScale) (powerOfTen largestPower)) (exponent - largestPower)
termination_by exponent
decreasing_by
  unfold largestPower at *
  omega

/-- The reading of a written decimal: its digits are rounded as an integer and then scaled by a
rounded power of ten. Out of range when the magnitude has no finite number. -/
def ofDecimal? (negative : Bool) (digits : Nat) (exponent : Int) : Option Double :=
  let units := roundUnits digits 1 * unitScale
  if exponent < 0 then
    some ⟨negative, scaleDown units exponent.natAbs⟩
  else if exponent.natAbs ≤ largestPower then
    ofUnits? negative (units * powerOfTen exponent.natAbs) unitScale
  else if units = 0 then
    some ⟨negative, 0⟩
  else
    none

end Double

end LinkedDocs
