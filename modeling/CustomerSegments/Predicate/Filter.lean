import CustomerSegments.Predicate.Basic
import CustomerSegments.Time.Text

namespace CustomerSegments

/-- The characters with a meaning in a regular expression. -/
def patternMarks : List Char :=
  ['\\', '^', '$', '.', '|', '?', '*', '+', '(', ')', '[', ']', '{', '}']

/-- The regular expression for a literal text: a backslash before each mark. -/
def escapePattern : List Char → List Char
  | [] => []
  | c :: cs => if c ∈ patternMarks then '\\' :: c :: escapePattern cs else c :: escapePattern cs

/-- The filter for a needle in any case; an operand that is no string has an empty needle. -/
def patternFilter (needle : Json) : Json :=
  let literal := match needle with
    | .string s => s.toList
    | _ => []
  .mk [("$regex", .string (String.ofList (escapePattern literal))), ("$options", .string "i")]

namespace Condition

def filterOperand (c : Condition) : Json :=
  match c.operand with
  | .value v => v
  | .instant t => .mk [("$date", .string t.filterText)]

def filterTest (c : Condition) : Json :=
  let operand := c.filterOperand
  match c.operator with
  | .equals => .mk [("$eq", operand)]
  | .notEquals => .mk [("$ne", operand)]
  | .greaterThan => .mk [("$gt", operand)]
  | .lessThan => .mk [("$lt", operand)]
  | .greaterThanEquals => .mk [("$gte", operand)]
  | .lessThanEquals => .mk [("$lte", operand)]
  | .contains => patternFilter operand
  | .notContains => .mk [("$not", patternFilter operand)]
  | .isIn => .mk [("$in", operand)]

def filter (c : Condition) : Json :=
  .mk [(c.field, c.filterTest)]

end Condition

namespace Predicate

mutual

/-- The filter document of a predicate, for a store that filters by itself. -/
def filter : Predicate → Json
  | nothing => .mk [("$nor", .array [.mk []])]
  | condition c => c.filter
  | all parts => .mk [("$and", .array (filters parts))]
  | any parts => .mk [("$or", .array (filters parts))]

def filters : List Predicate → List Json
  | [] => []
  | p :: ps => p.filter :: filters ps

end

end Predicate

end CustomerSegments
