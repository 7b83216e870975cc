import CustomerSegments.Decimal.Digits
import CustomerSegments.Decimal.Double

namespace CustomerSegments.Decimal

/-- The double nearest to `significand * 10 ^ power`; infinite beyond the greatest double. Powers
far outside the range of a double are settled without computing them. -/
def nearest (significand : Nat) (power : Int) : Float :=
  let top := ((digits significand).length : Int) + power
  if significand = 0 ∨ top < -330 then 0.0
  else if 310 < top then 1.0 / 0.0
  else Float.ofScientific significand (power < 0) power.natAbs

/-- The power of ten with a natural exponent, rounded to a double. -/
def powerOfTen (n : Nat) : Float :=
  Float.ofScientific 1 false n

/-- Divides by a power of ten, in steps of 308 while the exponent is greater than that and the
quotient is not zero yet. -/
def divideByPower (x : Float) (n : Nat) : Float :=
  if n ≤ 308 then x / powerOfTen n
  else if x == 0.0 then x
  else divideByPower (x / powerOfTen 308) (n - 308)
termination_by n

/-- Multiplies or divides by a rounded power of ten: two roundings, where `nearest` has one.
Too large a product is none. -/
def scale? (x : Float) (power : Int) : Option Float :=
  if power < 0 then some (divideByPower x power.natAbs)
  else if power ≤ 308 then
    let y := x * powerOfTen power.natAbs
    if y.isInf then none else some y
  else if x == 0.0 then some x
  else none

end CustomerSegments.Decimal
