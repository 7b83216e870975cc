import CustomerSegments.Config.Value
import CustomerSegments.Decimal.Text
import CustomerSegments.Json.Basic

namespace CustomerSegments.Config

/-- A table into which no source has been read. -/
def Value.nothing : Value := .table []

mutual

/-- A value of a document; an integer that needs all 64 bits is kept as a float. -/
def ofJson : Json → Value
  | .null => .missing
  | .bool b => .flag b
  | .number (.integer n) =>
    if n.val ≤ 9223372036854775807 then .integer n.val else .float n.toFloat
  | .number (.double x) => .float x.toFloat
  | .string s => .text s
  | .array items => .list (ofItems items)
  | .object members => .table (ofMembers members)

def ofItems : List Json → List Value
  | [] => []
  | x :: xs => ofJson x :: ofItems xs

def ofMembers : List (String × Json) → List (String × Value)
  | [] => []
  | (k, x) :: ms => (k, ofJson x) :: ofMembers ms

end

/-- Reads the members of a document over what is there. -/
def overlayDocument (root : Value) (members : List (String × Json)) : Value :=
  members.foldl (fun root (key, x) => set root key (ofJson x)) root

/-- What the name of a variable begins with if it is a setting. -/
def variableMark : String := "audience_express__"

/-- Two underscores lead from a table to its entries. -/
def withPoints : List Char → List Char
  | '_' :: '_' :: cs => '.' :: withPoints cs
  | c :: cs => c :: withPoints cs
  | [] => []

/-- The key of the setting that a variable holds. -/
def keyOf? (name : String) : Option String :=
  let lowered := (Text.lower name).toList
  let mark := variableMark.toList
  if mark.isPrefixOf lowered then some (String.ofList (withPoints (lowered.drop mark.length)))
  else none

/-- The parts of a text between commas. -/
def commaParts : List Char → List (List Char)
  | [] => [[]]
  | c :: cs =>
    if c = ',' then [] :: commaParts cs
    else
      match commaParts cs with
      | [] => [[c]]
      | part :: rest => (c :: part) :: rest

/-- The value of a variable: a truth value, an integer, a number, a list where the key asks for
one, or else a text. -/
def valueOf (key text : String) : Value :=
  let cs := text.toList
  if Text.lower text = "true" then .flag true
  else if Text.lower text = "false" then .flag false
  else
    match Decimal.int64? cs, Decimal.float? cs with
    | some n, _ => .integer n
    | none, some x => .float x
    | none, none =>
      if key = "redis.urls" then .list ((commaParts cs).map fun part => .text (String.ofList part))
      else .text text

/-- Reads the variables that are settings over what is there. -/
def overlayVariables (root : Value) (environment : List (String × String)) : Value :=
  environment.foldl (fun root (name, text) =>
    match keyOf? name with
    | some key => set root key (valueOf key text)
    | none => root) root

end CustomerSegments.Config
