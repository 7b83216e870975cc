import CustomerSegments.Id.Basic

namespace CustomerSegments.Http

/-- The value of a hexadecimal digit. -/
def hexValue? (b : UInt8) : Option UInt8 :=
  if 48 ≤ b ∧ b ≤ 57 then some (b - 48)
  else if 97 ≤ b ∧ b ≤ 102 then some (b - 87)
  else if 65 ≤ b ∧ b ≤ 70 then some (b - 55)
  else none

/-- Reads a percent sign with two hexadecimal digits as one byte; any other byte stands for
itself. -/
def percentDecode : List UInt8 → List UInt8
  | 37 :: a :: b :: rest =>
    match hexValue? a, hexValue? b with
    | some x, some y => (16 * x + y) :: percentDecode rest
    | _, _ => 37 :: percentDecode (a :: b :: rest)
  | a :: rest => a :: percentDecode rest
  | [] => []
termination_by bytes => bytes.length

/-- The id that a part of a path names. -/
def idIn? (part : List Char) : Option Uuid :=
  let bytes := percentDecode (String.ofList part).toUTF8.toList
  (String.fromUTF8? ⟨bytes.toArray⟩).bind Uuid.ofText?

/-- The path of a target: without scheme and host, query and fragment. -/
def pathOf (target : String) : List Char :=
  let path := target.toList.takeWhile fun c => c ≠ '?' && c ≠ '#'
  match path with
  | '/' :: _ => path
  | _ =>
    match path.dropWhile (· ≠ ':') with
    | ':' :: '/' :: '/' :: rest =>
      match rest.dropWhile (· ≠ '/') with
      | [] => ['/']
      | path => path
    | _ => path

/-- The parts of a path between slashes. -/
def parts : List Char → List (List Char)
  | [] => [[]]
  | c :: cs =>
    if c = '/' then [] :: parts cs
    else
      match parts cs with
      | [] => [[c]]
      | part :: rest => (c :: part) :: rest

/-- What a path leads to. -/
inductive Endpoint where
  | health
  | ready
  | live
  | segments
  | preview
  | segment (id : List Char)
  | segmentSummary (id : List Char)
  | customers
  | bulk
  | customer (id : List Char)
deriving DecidableEq

namespace Endpoint

/-- The endpoint of a path. A fixed name goes before an id, and an id at the end is not empty. -/
def ofPath? (path : List Char) : Option Endpoint :=
  match (parts path).map String.ofList with
  | ["", "health"] => some health
  | ["", "ready"] => some ready
  | ["", "live"] => some live
  | ["", "api", "v1", "segments"] => some segments
  | ["", "api", "v1", "segments", "preview"] => some preview
  | ["", "api", "v1", "segments", id] => if id = "" then none else some (segment id.toList)
  | ["", "api", "v1", "segments", id, "summary"] => some (segmentSummary id.toList)
  | ["", "api", "v1", "customers"] => some customers
  | ["", "api", "v1", "customers", "bulk"] => some bulk
  | ["", "api", "v1", "customers", id] => if id = "" then none else some (customer id.toList)
  | _ => none

/-- The methods that an endpoint allows. -/
def allowed : Endpoint → String
  | health | ready | live | segmentSummary _ => "GET,HEAD"
  | segments | customers => "GET,HEAD,POST"
  | preview | bulk => "POST"
  | segment _ | customer _ => "GET,HEAD,PUT,DELETE"

end Endpoint

end CustomerSegments.Http
