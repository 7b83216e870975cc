import CustomerSegments.Decimal.Text
import CustomerSegments.Json.Text
import CustomerSegments.Predicate.Basic
import CustomerSegments.Text.Lower

namespace CustomerSegments

/-- The number that a string writes, blank characters around it aside: an integer of 64 bits, or
else a finite double. -/
def numberIn? (s : String) : Option Number :=
  let cs := Text.trimChars s.toList
  match Decimal.int64? cs with
  | some n => (Integer.ofInt? n).map .integer
  | none => ((Decimal.float? cs).bind Double.ofFloat?).map .double

/-- Reads a string that writes a number as the number; any other value stays as it is. -/
def coerceNumber : Json → Json
  | .string s =>
    match numberIn? s with
    | some n => .number n
    | none => .string s
  | value => value

/-- Why a rule is left out. -/
inductive DropReason where
  | missingPart
  | unknownOperator
  | ageOperator
  | ageNotDays
  | ageOutOfRange
deriving DecidableEq, Repr

def DropReason.message : DropReason → String
  | missingPart => "missing field or operator"
  | unknownOperator => "unsupported operator"
  | ageOperator => "customer_age only supports greaterThan and lessThan"
  | ageNotDays => "customer_age value is not a day count"
  | ageOutOfRange => "customer_age value out of range"

/-- A rule that was left out. -/
structure Drop where
  term : Rule.Term
  reason : DropReason
deriving DecidableEq

/-- A number of days: an integer of 64 bits, a double below 2^63 without its fraction, or an
integer of 64 bits as text. -/
def dayCount? : Json → Option Int
  | .number (.integer n) => if n.val ≤ 9223372036854775807 then some n.val else none
  | .number (.double x) => if x.wholePart < 9223372036854775808 then some x.truncate else none
  | .string s => Decimal.int64? (Text.trimChars s.toList)
  | _ => none

namespace Rule.Term

/-- The value that an operator compares with. -/
def operand (term : Term) : Operator → Json
  | .contains | .notContains => .string (Text.lower term.value.asText)
  | .isIn =>
    match term.value with
    | .array items => .array items
    | value => .array [value]
  | _ => coerceNumber term.value

/-- The condition of an age: older than a number of days means created before the instant that
many days ago, so the comparison turns round. -/
def ageCondition (now : Instant) (term : Term) (operator : Operator) :
    Except DropReason Condition := do
  let turned ← match operator with
    | .greaterThan => .ok Operator.lessThan
    | .lessThan => .ok Operator.greaterThan
    | _ => .error .ageOperator
  match dayCount? term.value with
  | none => .error .ageNotDays
  | some days =>
    match now.daysEarlier? days with
    | none => .error .ageOutOfRange
    | some cutoff => .ok ⟨storedField customerAge, turned, .instant cutoff⟩

/-- The condition of a rule at a reference time, or why there is none. -/
def condition (now : Instant) (term : Term) : Except DropReason Condition :=
  if term.field = "" ∨ term.operator = "" then .error .missingPart
  else
    match Operator.ofToken? term.operator with
    | none => .error .unknownOperator
    | some operator =>
      if term.field = customerAge then term.ageCondition now operator
      else .ok ⟨storedField term.field, operator, .value (term.operand operator)⟩

end Rule.Term

/-- The conditions of the rules with one group id. -/
structure Group where
  id : String
  connective : Connective
  conditions : List Condition

/-- The conditions of a rule list, sorted by group. -/
structure Clauses where
  single : List Condition
  groups : List Group

namespace Clauses

def empty : Clauses := ⟨[], []⟩

/-- Adds conditions to a group; the first rule with its id founds it and fixes how it is joined. -/
def addToGroup (id : String) (connective : Connective) (conditions : List Condition) :
    List Group → List Group
  | [] => [⟨id, connective, conditions⟩]
  | g :: gs =>
    if g.id = id then { g with conditions := g.conditions ++ conditions } :: gs
    else g :: addToGroup id connective conditions gs

/-- Adds the condition of a rule, or only the rule's group if there is none. -/
def add (clauses : Clauses) (rule : Rule) (condition : Option Condition) : Clauses :=
  match rule.group? with
  | none => { clauses with single := clauses.single ++ condition.toList }
  | some id =>
    { clauses with
      groups := addToGroup id (.ofToken rule.connective) condition.toList clauses.groups }

/-- The clauses in order: the single rules together, then each group. -/
def parts (clauses : Clauses) : List Predicate :=
  (Predicate.conj? (clauses.single.map .condition)).toList ++
    clauses.groups.filterMap fun g => Predicate.joined? g.connective (g.conditions.map .condition)

/-- A customer passes if some clause holds. -/
def predicate (clauses : Clauses) : Predicate :=
  (Predicate.disj? clauses.parts).getD .nothing

end Clauses

/-- The outcome of compiling a rule list. -/
structure Compilation where
  clauses : Clauses
  dropped : List Drop

namespace Compilation

def empty : Compilation := ⟨.empty, []⟩

/-- Takes in one more rule. -/
def add (now : Instant) (done : Compilation) (rule : Rule) : Compilation :=
  match rule.term.condition now with
  | .ok condition => { done with clauses := done.clauses.add rule (some condition) }
  | .error reason =>
    { clauses := done.clauses.add rule none, dropped := done.dropped ++ [⟨rule.term, reason⟩] }

def predicate (done : Compilation) : Predicate :=
  done.clauses.predicate

end Compilation

/-- Compiles a rule list at a reference time. Rules that make no condition are left out and
reported, and never spoil the rest. -/
def compile (rules : List Rule) (now : Instant) : Compilation :=
  rules.foldl (Compilation.add now) .empty

end CustomerSegments
