import CustomerSegments.Text.Blank

namespace CustomerSegments

inductive Operator where
  | equals
  | notEquals
  | greaterThan
  | lessThan
  | greaterThanEquals
  | lessThanEquals
  | contains
  | notContains
  | isIn
deriving DecidableEq, Repr

namespace Operator

/-- The word or sign of an operator, with blank characters around it. -/
def ofToken? (token : String) : Option Operator :=
  match Text.trim token with
  | "equals" | "=" => some equals
  | "notEquals" | "!=" => some notEquals
  | "greaterThan" | ">" => some greaterThan
  | "lessThan" | "<" => some lessThan
  | "greaterThanEquals" | ">=" => some greaterThanEquals
  | "lessThanEquals" | "<=" => some lessThanEquals
  | "contains" => some contains
  | "notContains" | "not_contains" => some notContains
  | "in" => some isIn
  | _ => none

/-- An operator that reads a string with a number in it as that number. -/
def isComparison : Operator → Bool
  | contains | notContains | isIn => false
  | _ => true

end Operator

/-- The field of the customer's age, which is kept as the time of the customer's creation. -/
def customerAge : String := "customer_age"

/-- The stored field that a rule's field means; any other name means itself. -/
def storedField (field : String) : String :=
  match field with
  | "total_spend" => "totalSpend"
  | "visit_count" => "visitCount"
  | "last_order_date" => "lastOrderDate"
  | "product_category" => "preferredCategory"
  | "customer_age" => "createdAt"
  | other => other

end CustomerSegments
