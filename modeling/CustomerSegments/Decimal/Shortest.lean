import CustomerSegments.Decimal.Digits
import CustomerSegments.Decimal.Double

namespace CustomerSegments.Decimal

/-- The decimal `significand * 10 ^ power`. -/
structure Scaled where
  significand : Nat
  power : Int
deriving DecidableEq

/-- A positive magnitude `numerator / denominator` and the interval of magnitudes that round to
it, all over one denominator. -/
structure Neighbourhood where
  numerator : Nat
  lower : Nat
  upper : Nat
  denominator : Nat
  closed : Bool

/-- The magnitudes that round to a given one reach half way to its neighbours, which are half as
far apart below a power of two; the ends belong to it if its mantissa is even. -/
def neighbourhood (x : Double) : Neighbourhood :=
  let m := x.mantissa
  let below := if x.fractionBits = 0 ∧ 1 < x.exponentBits then 1 else 2
  let scale := if 0 ≤ x.exponent then 1 <<< x.exponent.toNat else 1
  { numerator := 4 * m * scale
    lower := (4 * m - below) * scale
    upper := (4 * m + 2) * scale
    denominator := 4 * (if 0 ≤ x.exponent then 1 else 1 <<< (-x.exponent).toNat)
    closed := m % 2 = 0 }

/-- A decimal rounds to the magnitude of the neighbourhood. -/
def Neighbourhood.holds (n : Neighbourhood) (d : Scaled) : Bool :=
  let left := d.significand * n.denominator * Nat.pow 10 d.power.toNat
  let shift := Nat.pow 10 (-d.power).toNat
  if n.closed then n.lower * shift ≤ left && left ≤ n.upper * shift
  else n.lower * shift < left && left < n.upper * shift

/-- The magnitude is `quotient * 10 ^ power` and a rest. -/
def Neighbourhood.floorAt (n : Neighbourhood) (power : Int) : Nat :=
  n.numerator * Nat.pow 10 (-power).toNat / (n.denominator * Nat.pow 10 power.toNat)

/-- The magnitude lies strictly nearer to the upper of the two neighbours on a decimal grid, or
half way between them while the lower one is odd. -/
def Neighbourhood.prefersUpper (n : Neighbourhood) (power : Int) (low : Nat) : Bool :=
  let twice := 2 * n.numerator * Nat.pow 10 (-power).toNat
  let middle := (2 * low + 1) * (n.denominator * Nat.pow 10 power.toNat)
  middle < twice || (middle = twice && low % 2 = 1)

/-- The neighbour on the decimal grid of a power that reads back, the nearer one if both do. -/
def Neighbourhood.onGrid (n : Neighbourhood) (power : Int) : Option Scaled :=
  let low := n.floorAt power
  let down : Scaled := ⟨low, power⟩
  let up : Scaled := ⟨low + 1, power⟩
  match n.holds down, n.holds up with
  | true, true => some (if n.prefersUpper power low then up else down)
  | true, false => some down
  | false, true => some up
  | false, false => none

/-- The power of ten of the leading digit. -/
def Neighbourhood.magnitude (n : Neighbourhood) : Int :=
  ((digits (n.numerator * Nat.pow 10 340 / n.denominator)).length : Int) - 341

/-- The decimal of fewest digits that reads back as the magnitude of a nonzero double, and the
nearest of those; seventeen digits always suffice. -/
def shortest (x : Double) : Scaled :=
  let n := neighbourhood x
  let top := n.magnitude
  ((List.range 18).findSome? fun (k : Nat) => n.onGrid (top + 1 - k)).getD
    ⟨n.floorAt (top - 17), top - 17⟩

/-- How a decimal is written down. -/
structure Notation where
  /-- the least position of the point, counted from the first digit, without an exponent -/
  leastPoint : Int
  /-- the greatest one -/
  mostPoint : Int
  /-- whether a whole number ends in a point and a zero -/
  pointZero : Bool
deriving DecidableEq

/-- The text of `significand * 10 ^ power`; the exponent of a decimal outside the positional
range carries its sign. -/
def Notation.write (style : Notation) (d : Scaled) : List Char :=
  let ds := digits d.significand
  let point := (ds.length : Int) + d.power
  if style.leastPoint ≤ point ∧ point ≤ style.mostPoint then
    if 0 ≤ d.power then
      ds ++ List.replicate d.power.toNat '0' ++ (if style.pointZero then ['.', '0'] else [])
    else if 0 < point then ds.take point.toNat ++ '.' :: ds.drop point.toNat
    else '0' :: '.' :: List.replicate (-point).toNat '0' ++ ds
  else
    let tail := if ds.length = 1 then [] else '.' :: ds.drop 1
    let sign := if 1 ≤ point then ['+'] else []
    ds.take 1 ++ tail ++ 'e' :: sign ++ ofInt (point - 1)

/-- The text of a double in a given notation. -/
def Notation.text (style : Notation) (x : Double) : List Char :=
  let magnitude := if x.mantissa = 0 then style.write ⟨0, 0⟩ else style.write (shortest x)
  if x.isNegative then '-' :: magnitude else magnitude

end CustomerSegments.Decimal
