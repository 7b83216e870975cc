import CustomerSegments.Json.Basic
import CustomerSegments.Json.Token

namespace CustomerSegments.Json

/-- What can be read of a document. An array or object that is not closed breaks off behind its
last element; a value that breaks off at its first token is `broken`. -/
inductive Reading where
  | null
  | bool (b : Bool)
  | number (n : Option Number)
  | string (s : Option String)
  | array (items : List Reading) (closed : Bool)
  | object (members : List (Option String × Reading)) (closed : Bool)
  | broken

instance : Inhabited Reading := ⟨.broken⟩

/-- An array or object that is being read, its elements in reverse. -/
inductive Frame where
  | array (items : List Reading)
  | object (members : List (Option String × Reading))
  | member (name : Option String) (members : List (Option String × Reading))

/-- What the next token has to be. -/
inductive Expect where
  | value
  | valueOrClose
  | commaOrClose
  | name
  | nameOrClose
  | colon
deriving DecidableEq

/-- The innermost container with one more element. -/
def Frame.add (value : Reading) : Frame → Frame
  | .array items => .array (value :: items)
  | .object members => .object members
  | .member name members => .object ((name, value) :: members)

/-- The container as it stands; a member without a value has a broken one. -/
def Frame.close (closed : Bool) : Frame → Reading
  | .array items => .array items.reverse closed
  | .object members => .object members.reverse closed
  | .member name members => .object ((name, .broken) :: members).reverse closed

/-- The value of the whole text when it breaks off inside containers. -/
def breakOff : List Frame → Reading
  | [] => .broken
  | [frame] => frame.close false
  | frame :: outer :: rest => breakOff (outer.add (frame.close false) :: rest)
termination_by frames => frames.length

/-- A document as far as it can be read, and the tokens behind it. -/
structure Document where
  value : Reading
  rest : List Token

/-- Reads on with the containers around the next token, innermost first. -/
def read (frames : List Frame) (expect : Expect) : List Token → Document
  | [] => ⟨breakOff frames, []⟩
  | token :: tokens =>
    let finish (value : Reading) (frames : List Frame) : Document :=
      match frames with
      | [] => ⟨value, tokens⟩
      | frame :: outer => read (frame.add value :: outer) .commaOrClose tokens
    match expect, token with
    | .value, .null | .valueOrClose, .null => finish .null frames
    | .value, .bool b | .valueOrClose, .bool b => finish (.bool b) frames
    | .value, .number n | .valueOrClose, .number n => finish (.number n) frames
    | .value, .string s | .valueOrClose, .string s => finish (.string s) frames
    | .value, .openArray | .valueOrClose, .openArray =>
      read (.array [] :: frames) .valueOrClose tokens
    | .value, .openObject | .valueOrClose, .openObject =>
      read (.object [] :: frames) .nameOrClose tokens
    | .valueOrClose, .closeArray | .nameOrClose, .closeObject =>
      match frames with
      | [] => ⟨.broken, tokens⟩
      | frame :: outer => finish (frame.close true) outer
    | .commaOrClose, .closeArray =>
      match frames with
      | .array items :: outer => finish ((Frame.array items).close true) outer
      | _ => ⟨breakOff frames, tokens⟩
    | .commaOrClose, .closeObject =>
      match frames with
      | .object members :: outer => finish ((Frame.object members).close true) outer
      | _ => ⟨breakOff frames, tokens⟩
    | .commaOrClose, .comma =>
      match frames with
      | .array items :: outer => read (.array items :: outer) .value tokens
      | .object members :: outer => read (.object members :: outer) .name tokens
      | _ => ⟨breakOff frames, tokens⟩
    | .name, .string s | .nameOrClose, .string s =>
      match frames with
      | .object members :: outer => read (.member s members :: outer) .colon tokens
      | _ => ⟨breakOff frames, tokens⟩
    | .colon, .colon => read frames .value tokens
    | _, _ => ⟨breakOff frames, tokens⟩

/-- Reads the document at the front of a text. -/
def Document.ofText (s : String) : Document :=
  read [] .value (tokens s.toList)

mutual

/-- A document that is there in full. -/
def Reading.ofJson : Json → Reading
  | .null => .null
  | .bool b => .bool b
  | .number n => .number (some n)
  | .string s => .string (some s)
  | .array items => .array (Reading.ofItems items) true
  | .object members => .object (Reading.ofMembers members) true

def Reading.ofItems : List Json → List Reading
  | [] => []
  | x :: xs => Reading.ofJson x :: Reading.ofItems xs

def Reading.ofMembers : List (String × Json) → List (Option String × Reading)
  | [] => []
  | (k, x) :: ms => (some k, Reading.ofJson x) :: Reading.ofMembers ms

end

mutual

/-- Nothing breaks off anywhere inside. -/
def Reading.isSound : Reading → Bool
  | .array items closed => Reading.allSound items && closed
  | .object members closed => Reading.membersSound members && closed
  | .broken => false
  | _ => true

def Reading.allSound : List Reading → Bool
  | [] => true
  | x :: xs => x.isSound && Reading.allSound xs

def Reading.membersSound : List (Option String × Reading) → Bool
  | [] => true
  | (_, x) :: ms => x.isSound && Reading.membersSound ms

end

end CustomerSegments.Json
