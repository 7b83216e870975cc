import CustomerSegments.Decimal.Rounding

namespace CustomerSegments.Decimal

/-- The parts of a decimal with an optional sign, point and exponent. -/
structure Literal where
  negative : Bool
  digits : List Char
  power : Int

namespace Literal

/-- The exponent at the end of a decimal. -/
def readPower? : List Char → Option Int
  | [] => some 0
  | c :: cs => if c = 'e' ∨ c = 'E' then integer? cs else none

/-- Reads a decimal without its sign: digits before or behind the point, or both. -/
def ofUnsigned? (negative : Bool) (cs : List Char) : Option Literal :=
  let whole := cs.takeWhile isDigit
  let (fraction, rest) :=
    match cs.dropWhile isDigit with
    | '.' :: rest => (rest.takeWhile isDigit, rest.dropWhile isDigit)
    | rest => ([], rest)
  if whole.isEmpty && fraction.isEmpty then none
  else (readPower? rest).map fun power => ⟨negative, whole ++ fraction, power - fraction.length⟩

def toFloat (d : Literal) : Float :=
  let magnitude := nearest (ofDigits d.digits) d.power
  if d.negative then -magnitude else magnitude

end Literal

/-- A number in double precision as text: a decimal, rounded to the nearest double, or a word for
infinity or for no number. -/
def float? (cs : List Char) : Option Float :=
  let (negative, unsigned) :=
    match cs with
    | '-' :: rest => (true, rest)
    | '+' :: rest => (false, rest)
    | rest => (false, rest)
  let word := unsigned.map Char.toLower
  if word = ['i', 'n', 'f'] ∨ word = ['i', 'n', 'f', 'i', 'n', 'i', 't', 'y'] then
    some (if negative then -(1.0 / 0.0) else 1.0 / 0.0)
  else if word = ['n', 'a', 'n'] then some (0.0 / 0.0)
  else (Literal.ofUnsigned? negative unsigned).map Literal.toFloat

end CustomerSegments.Decimal
