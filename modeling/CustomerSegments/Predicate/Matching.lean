import CustomerSegments.Predicate.Basic
import CustomerSegments.Text.Lower
import CustomerSegments.Time.Text

namespace CustomerSegments

/-- The parts of a text between dots. -/
def dotted : List Char → List (List Char)
  | [] => [[]]
  | c :: cs =>
    if c = '.' then [] :: dotted cs
    else
      match dotted cs with
      | [] => [[c]]
      | part :: parts => (c :: part) :: parts

/-- The member names along a field. -/
def pathOf (field : String) : List String :=
  (dotted field.toList).map String.ofList

/-- The value of a field in a customer's document, or else among its attributes. A null counts
as missing, and one in the document hides the attributes. -/
def resolve (document : Json) (field : String) : Option Json :=
  let path := pathOf field
  ((document.lookup? path).or ((document.get? "attributes").bind (·.lookup? path))).filter
    (!·.isNull)

/-- A test holds of a value, or of one of its elements if it is an array. -/
def someElement (test : Json → Bool) : Json → Bool
  | .array items => items.any test
  | value => test value

/-- Two numbers are equal as doubles, other values by their parts. -/
def equalValues : Json → Json → Bool
  | .number a, .number b => a.toFloat == b.toFloat
  | a, b => a.same b

/-- The order of two doubles; a value that is no number has none. -/
def compareFloats (x y : Float) : Option Ordering :=
  if x < y then some .lt else if x == y then some .eq else if y < x then some .gt else none

/-- The instant that a string names. -/
def instantOf? : Json → Option Instant
  | .string s => Instant.ofStrict? s
  | _ => none

/-- The order of two strings: in time if both name instants, else by their characters. -/
def compareStrings (a b : String) : Ordering :=
  match Instant.ofStrict? a, Instant.ofStrict? b with
  | some x, some y => x.compare y
  | _, _ => Ord.compare a b

/-- The order of a value and an operand; values of different kinds have none. -/
def compareTo (actual : Json) : Operand → Option Ordering
  | .instant t => (instantOf? actual).map (·.compare t)
  | .value expected =>
    match actual, expected with
    | .number a, .number b => compareFloats a.toFloat b.toFloat
    | .string a, .string b => some (compareStrings a b)
    | _, _ => none

namespace Operand

def equals (operand : Operand) (actual : Json) : Bool :=
  match operand with
  | value expected => equalValues actual expected
  | instant t => (instantOf? actual).any (·.compare t == .eq)

def ordered (operand : Operand) (accept : Ordering → Bool) (actual : Json) : Bool :=
  (compareTo actual operand).any accept

/-- A string holds the needle when it is put in lower case, as the needle is already. -/
def isWithin (operand : Operand) (actual : Json) : Bool :=
  match operand, actual with
  | value (.string needle), .string s => Text.occursIn needle.toList (Text.lower s).toList
  | _, _ => false

def lists (operand : Operand) (actual : Json) : Bool :=
  match operand with
  | value (.array items) => items.any (equalValues actual)
  | _ => false

end Operand

namespace Condition

/-- The test on one element that an operator makes; the negative operators deny that some element
passes it. -/
def test (c : Condition) : Json → Bool :=
  match c.operator with
  | .equals | .notEquals => c.operand.equals
  | .greaterThan => c.operand.ordered (· == .gt)
  | .greaterThanEquals => c.operand.ordered (· != .lt)
  | .lessThan => c.operand.ordered (· == .lt)
  | .lessThanEquals => c.operand.ordered (· != .gt)
  | .contains | .notContains => c.operand.isWithin
  | .isIn => c.operand.lists

def isNegative (c : Condition) : Bool :=
  match c.operator with
  | .notEquals | .notContains => true
  | _ => false

def holds (c : Condition) (document : Json) : Bool :=
  let found := (resolve document c.field).any (someElement c.test)
  if c.isNegative then !found else found

end Condition

namespace Predicate

mutual

def holds (document : Json) : Predicate → Bool
  | nothing => false
  | condition c => c.holds document
  | all parts => allHold document parts
  | any parts => anyHolds document parts

def allHold (document : Json) : List Predicate → Bool
  | [] => true
  | p :: ps => p.holds document && allHold document ps

def anyHolds (document : Json) : List Predicate → Bool
  | [] => false
  | p :: ps => p.holds document || anyHolds document ps

end

theorem allHold_eq_all (document : Json) (ps : List Predicate) :
    allHold document ps = ps.all (·.holds document) := by
  induction ps with
  | nil => rfl
  | cons p ps ih => simp [allHold, ih]

theorem anyHolds_eq_any (document : Json) (ps : List Predicate) :
    anyHolds document ps = ps.any (·.holds document) := by
  induction ps with
  | nil => rfl
  | cons p ps ih => simp [anyHolds, ih]

end Predicate

end CustomerSegments
