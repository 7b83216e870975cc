import CustomerSegments.Error
import CustomerSegments.Json.Basic
import CustomerSegments.Text.Blank

namespace CustomerSegments.Http

structure Request where
  method : String
  target : String
  headers : List (String × String)
  body : String

namespace Request

/-- A header value is text: blanks, tabs and the visible characters of ASCII. -/
def isReadable (value : String) : Bool :=
  value.toList.all fun c => c = '\t' || (32 ≤ c.toNat && c.toNat < 127)

/-- The first header of a name, in any case, if it is text. -/
def header? (r : Request) (name : String) : Option String :=
  let lower (s : String) := s.toList.map Char.toLower
  match r.headers.find? fun h => lower h.1 == lower name with
  | some (_, value) => if isReadable value then some value else none
  | none => none

/-- The user that acts, or the administrator if nobody is named. -/
def actingUser (r : Request) : String :=
  match r.header? "x-user-id" with
  | some value => if Text.trim value = "" then "admin" else Text.trim value
  | none => "admin"

end Request

/-- Why a request is turned away before it is served. -/
inductive Rejection where
  | badId
  | notJsonType
  | notJson
  | wrongShape
deriving DecidableEq, Repr

namespace Rejection

def status : Rejection → Nat
  | badId => 400
  | notJsonType => 415
  | notJson => 400
  | wrongShape => 422

def message : Rejection → String
  | badId => "Invalid URL"
  | notJsonType => "Expected request with `Content-Type: application/json`"
  | notJson => "Failed to parse the request body as JSON"
  | wrongShape => "Failed to deserialize the JSON body into the target type"

end Rejection

/-- What a response carries. -/
inductive Body where
  | empty
  | json (document : Json)
  | failure (error : Error)
  | rejection (reason : Rejection)

structure Response where
  status : Nat
  /-- the methods that the target allows, where they are told -/
  allow : Option String
  body : Body

/-- The status of an error and the code that names it. -/
def errorStatus : Error → Nat × String
  | .validation _ => (400, "validation_failed")
  | .duplicateName _ => (409, "duplicate_name")
  | .notFound _ _ => (404, "not_found")
  | _ => (500, "internal_error")

namespace Response

def empty (status : Nat) : Response := ⟨status, none, .empty⟩

def json (status : Nat) (document : Json) : Response := ⟨status, none, .json document⟩

def failure (e : Error) : Response := ⟨(errorStatus e).1, none, .failure e⟩

def rejection (r : Rejection) : Response := ⟨r.status, none, .rejection r⟩

/-- The response without its body. -/
def headOnly (r : Response) : Response := { r with body := .empty }

end Response

/-- The document that tells an error. -/
def errorDocument (e : Error) : Json :=
  .mk [("error", .string (errorStatus e).2), ("message", .string e.message)]

end CustomerSegments.Http
