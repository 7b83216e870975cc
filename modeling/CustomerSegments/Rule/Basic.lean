import CustomerSegments.Json.Decoder
import CustomerSegments.Text.Blank

namespace CustomerSegments

/-- How the rules of a group are joined. -/
inductive Connective where
  | conj
  | disj
deriving DecidableEq, Repr

namespace Connective

def name : Connective → String
  | conj => "and"
  | disj => "or"

/-- The word `or` in any case, with blank characters around it, joins by disjunction; anything
else, or nothing, by conjunction. -/
def ofToken (token : Option String) : Connective :=
  match token with
  | some t =>
    if (Text.trimChars t.toList).map Char.toLower = ['o', 'r'] then disj else conj
  | none => conj

def toJson (c : Connective) : Json :=
  .string c.name

def decoder : Json.Decoder Connective :=
  .choice [("and", conj), ("or", disj)]

end Connective

/-- A targeting rule as a client writes it. A rule without a field or an operator is kept, so
that only the rule and not the whole request is refused. -/
structure Rule where
  field : String
  operator : String
  value : Json
  groupId : Option String
  connective : Option String
deriving DecidableEq

namespace Rule

/-- A rule that belongs to no group. -/
def single (field operator : String) (value : Json) : Rule :=
  ⟨field, operator, value, none, none⟩

def inGroup (rule : Rule) (id : String) (connective : Connective) : Rule :=
  { rule with groupId := some id, connective := some connective.name }

/-- What a rule asks for, apart from its group. -/
structure Term where
  field : String
  operator : String
  value : Json
deriving DecidableEq

def term (rule : Rule) : Term :=
  ⟨Text.trim rule.field, Text.trim rule.operator, rule.value⟩

/-- The group of a rule; a blank group id is none. -/
def group? (rule : Rule) : Option String :=
  (rule.groupId.map Text.trim).filter (· ≠ "")

/-- The members of a rule in the order in which they are written. A rule outside of groups has none
for its group. -/
def members (rule : Rule) : List (String × Json) :=
  [("field", .string rule.field), ("operator", .string rule.operator), ("value", rule.value)] ++
    (rule.groupId.map fun id => ("groupId", Json.string id)).toList ++
    (rule.connective.map fun c => ("groupOperator", Json.string c)).toList

def toJson (rule : Rule) : Json :=
  .mk rule.members

/-- A rule as it is written in the text of a segment. -/
def written (rule : Rule) : Json :=
  .object rule.members

def decoder : Json.Decoder Rule :=
  .record ["field", "operator", "value", "groupId", "groupOperator"] fun f =>
    Rule.mk <$> f.defaulted "field" .string "" <*> f.defaulted "operator" .string "" <*>
      f.defaulted "value" Json.Decoder.json .null <*> f.optional "groupId" .string <*>
      f.optional "groupOperator" .string

end Rule

end CustomerSegments
