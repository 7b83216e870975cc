namespace CustomerSegments

/-- A finite number in double precision. -/
structure Double where
  toFloat : Float
  finite : toFloat.isFinite = true
deriving DecidableEq

namespace Double

def ofFloat? (x : Float) : Option Double :=
  if h : x.isFinite = true then some ⟨x, h⟩ else none

def zero : Double := ⟨0.0, by decide⟩

instance : Inhabited Double := ⟨zero⟩

/-- The sign bit. -/
def isNegative (x : Double) : Bool :=
  x.toFloat.toBits.toNat >>> 63 = 1

/-- The eleven bits of the exponent. -/
def exponentBits (x : Double) : Nat :=
  (x.toFloat.toBits.toNat >>> 52) % (1 <<< 11)

/-- The 52 bits behind the leading one. -/
def fractionBits (x : Double) : Nat :=
  x.toFloat.toBits.toNat % (1 <<< 52)

/-- The magnitude is `x.mantissa * 2 ^ x.exponent`. -/
def mantissa (x : Double) : Nat :=
  if x.exponentBits = 0 then x.fractionBits else x.fractionBits + 1 <<< 52

@[inherit_doc mantissa]
def exponent (x : Double) : Int :=
  if x.exponentBits = 0 then -1074 else (x.exponentBits : Int) - 1075

/-- The magnitude without its fractional part. -/
def wholePart (x : Double) : Nat :=
  if 0 ≤ x.exponent then x.mantissa <<< x.exponent.toNat
  else x.mantissa >>> (-x.exponent).toNat

/-- The nearest integer toward zero. -/
def truncate (x : Double) : Int :=
  if x.isNegative then -(x.wholePart : Int) else x.wholePart

/-- The magnitude rounded to an integer, a half upward. -/
def roundedMagnitude (x : Double) : Nat :=
  if 0 ≤ x.exponent then x.mantissa <<< x.exponent.toNat
  else (2 * x.mantissa + 1 <<< (-x.exponent).toNat) >>> ((-x.exponent).toNat + 1)

end Double

end CustomerSegments
