import CustomerSegments.Json.Basic

namespace CustomerSegments.Json

/-- One character inside quotes: quotes, backslashes and control characters are escaped. -/
def escapeChar (c : Char) : List Char :=
  if c = '"' then ['\\', '"']
  else if c = '\\' then ['\\', '\\']
  else if c = '\n' then ['\\', 'n']
  else if c = '\r' then ['\\', 'r']
  else if c = '\t' then ['\\', 't']
  else if c = '\x08' then ['\\', 'b']
  else if c = '\x0c' then ['\\', 'f']
  else if c.toNat < 0x20 then
    ['\\', 'u', '0', '0', Nat.digitChar (c.toNat / 16), Nat.digitChar (c.toNat % 16)]
  else [c]

def quote (s : String) : List Char :=
  '"' :: s.toList.flatMap escapeChar ++ ['"']

mutual

/-- The compact text of a document: no spaces, members in order. -/
def write : Json → List Char
  | null => ['n', 'u', 'l', 'l']
  | bool true => ['t', 'r', 'u', 'e']
  | bool false => ['f', 'a', 'l', 's', 'e']
  | number n => n.text
  | string s => quote s
  | array items => '[' :: writeItems items ++ [']']
  | object members => '{' :: writeMembers members ++ ['}']

def writeItems : List Json → List Char
  | [] => []
  | [x] => write x
  | x :: y :: xs => write x ++ ',' :: writeItems (y :: xs)

def writeMembers : List (String × Json) → List Char
  | [] => []
  | [(k, x)] => quote k ++ ':' :: write x
  | (k, x) :: m :: ms => quote k ++ ':' :: (write x ++ ',' :: writeMembers (m :: ms))

end

/-- The compact text of a document. -/
def text (document : Json) : String :=
  String.ofList document.write

/-- A string stands for itself, any other document for its compact text. -/
def asText : Json → String
  | string s => s
  | document => document.text

end CustomerSegments.Json
