import CustomerSegments.Json.Basic
import CustomerSegments.Rule.Basic
import CustomerSegments.Rule.Operator
import CustomerSegments.Time.Instant

namespace CustomerSegments

/-- The right side of a condition. -/
inductive Operand where
  | value (v : Json)
  | instant (t : Instant)
deriving DecidableEq

/-- A test of one stored field. -/
structure Condition where
  field : String
  operator : Operator
  operand : Operand
deriving DecidableEq

/-- A test of a customer's document. -/
inductive Predicate where
  /-- holds for no customer -/
  | nothing
  | condition (c : Condition)
  | all (parts : List Predicate)
  | any (parts : List Predicate)

namespace Predicate

instance : Inhabited Predicate := ⟨nothing⟩

/-- The conjunction of parts: of none there is none, and one part stands for itself. -/
def conj? : List Predicate → Option Predicate
  | [] => none
  | [p] => some p
  | ps => some (all ps)

/-- The disjunction of parts: of none there is none, and one part stands for itself. -/
def disj? : List Predicate → Option Predicate
  | [] => none
  | [p] => some p
  | ps => some (any ps)

def joined? : Connective → List Predicate → Option Predicate
  | .conj => conj?
  | .disj => disj?

def isNothing : Predicate → Bool
  | nothing => true
  | _ => false

end Predicate

end CustomerSegments
