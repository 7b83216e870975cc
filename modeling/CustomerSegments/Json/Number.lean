import CustomerSegments.Decimal.Rounding
import CustomerSegments.Decimal.Shortest

namespace CustomerSegments

/-- An integer that 64 bits hold, with or without a sign. -/
structure Integer where
  val : Int
  fits : -9223372036854775808 ≤ val ∧ val < 18446744073709551616
deriving DecidableEq

namespace Integer

def ofInt? (n : Int) : Option Integer :=
  if h : -9223372036854775808 ≤ n ∧ n < 18446744073709551616 then some ⟨n, h⟩ else none

def zero : Integer := ⟨0, by decide⟩

instance : Inhabited Integer := ⟨zero⟩

/-- The nearest double. -/
def toFloat (n : Integer) : Float :=
  Float.ofInt n.val

end Integer

/-- A number of a JSON document. The literal decides between the two kinds: a fraction, an
exponent, a negative zero or more than 64 bits make a double. -/
inductive Number where
  | integer (n : Integer)
  | double (x : Double)
deriving DecidableEq

namespace Number

def toFloat : Number → Float
  | integer n => n.toFloat
  | double x => x.toFloat

/-- Equality within a kind; the two zeros are equal, and numbers of different kinds never are. -/
def same : Number → Number → Bool
  | integer m, integer n => m.val == n.val
  | double x, double y => x.toFloat == y.toFloat
  | _, _ => false

/-- Plain notation from 0.00001 up to 16 digits before the point, and always a point. -/
def notation16 : Decimal.Notation := ⟨-4, 16, true⟩

def text : Number → List Char
  | integer n => Decimal.ofInt n.val
  | double x => notation16.text x

end Number

/-- The parts of a number literal. -/
structure Numeral where
  negative : Bool
  whole : List Char
  fraction : List Char
  /-- whether the literal has a fraction or an exponent -/
  isDouble : Bool
  power : Int

namespace Numeral

/-- Appends digits to a significand while it fits in 64 bits; the digits left over. -/
def accumulate (significand : Nat) : List Char → Nat × List Char
  | [] => (significand, [])
  | c :: cs =>
    let next := 10 * significand + Decimal.digitValue c
    if next < 18446744073709551616 then accumulate next cs else (significand, c :: cs)

/-- The exponent of a literal: digits behind a mark and at most one sign. -/
def readPower : List Char → Int
  | [] => 0
  | _ :: '-' :: cs => -(Decimal.ofDigits cs : Int)
  | _ :: '+' :: cs => Decimal.ofDigits cs
  | _ :: cs => Decimal.ofDigits cs

/-- Takes a literal apart. -/
def ofLiteral (cs : List Char) : Numeral :=
  let negative := cs.head? = some '-'
  let unsigned := if negative then cs.tail else cs
  let whole := unsigned.takeWhile Decimal.isDigit
  let rest := unsigned.dropWhile Decimal.isDigit
  match rest with
  | '.' :: rest =>
    { negative, whole, fraction := rest.takeWhile Decimal.isDigit, isDouble := true
      power := readPower (rest.dropWhile Decimal.isDigit) }
  | rest =>
    { negative, whole, fraction := [], isDouble := !rest.isEmpty, power := readPower rest }

/-- The double of a literal. Digits beyond 64 bits are dropped, and the rest is scaled by a
rounded power of ten, so a long literal may miss the nearest double. -/
def toDouble? (n : Numeral) : Option Double :=
  let (significand, beyond) := accumulate 0 n.whole
  let (significand, dropped) := accumulate significand n.fraction
  let power := n.power + beyond.length - (n.fraction.length - dropped.length : Nat)
  (Decimal.scale? (Float.ofNat significand) power).bind fun x =>
    Double.ofFloat? (if n.negative then -x else x)

/-- The number of a literal; none if it exceeds every double. -/
def toNumber? (n : Numeral) : Option Number :=
  let magnitude := Decimal.ofDigits n.whole
  if n.isDouble ∨ (n.negative ∧ magnitude = 0) then n.toDouble?.map .double
  else
    let signed : Int := if n.negative then -(magnitude : Int) else magnitude
    match Integer.ofInt? signed with
    | some i => some (.integer i)
    | none => n.toDouble?.map .double

end Numeral

end CustomerSegments
