import CustomerSegments.Json.Reading

namespace CustomerSegments.Json

/-- Why a document gives no value: its text is no JSON, or it is JSON of another shape. -/
inductive Problem where
  | malformed
  | misfit
deriving DecidableEq, Repr

/-- Where a document comes from. A text may open only so many more arrays and objects inside one
another; a value that is at hand has no such limit. -/
inductive Source where
  | text (room : Nat)
  | value
deriving DecidableEq

/-- Opens an array or object. -/
def Source.enter : Source → Except Problem Source
  | text 0 => .error .malformed
  | text (room + 1) => .ok (text room)
  | value => .ok value

/-- The problem with something unexpected where a text and a value differ. -/
def Source.unexpected : Source → Problem
  | text _ => .malformed
  | value => .misfit

/-- The greatest depth of arrays and objects in a text. -/
def maxDepth : Nat := 127

/-- Reads a value of a type from a document. -/
abbrev Decoder (α : Type) := Source → Reading → Except Problem α

/-- The problem with a document of the wrong kind. -/
def Reading.mismatch : Reading → Problem
  | .broken | .number none | .string none => .malformed
  | _ => .misfit

namespace Decoder

def bool : Decoder Bool := fun _ r =>
  match r with
  | .bool b => .ok b
  | r => .error r.mismatch

def string : Decoder String := fun _ r =>
  match r with
  | .string (some s) => .ok s
  | r => .error r.mismatch

def number : Decoder Number := fun _ r =>
  match r with
  | .number (some n) => .ok n
  | r => .error r.mismatch

/-- A value that a function accepts or refuses. -/
def check (d : Decoder α) (f : α → Option β) : Decoder β := fun source r => do
  match f (← d source r) with
  | some b => .ok b
  | none => .error .misfit

/-- An integer in a range; a double is none, not even a whole one. -/
def integer (least most : Int) : Decoder Int :=
  check number fun
    | .integer n => if least ≤ n.val ∧ n.val ≤ most then some n.val else none
    | .double _ => none

/-- Any number, as a double. -/
def double : Decoder Double :=
  check number fun n => Double.ofFloat? n.toFloat

def option (d : Decoder α) : Decoder (Option α) := fun source r =>
  match r with
  | .null => .ok none
  | r => (d source r).map some

def list (d : Decoder α) : Decoder (List α) := fun source r =>
  match r with
  | .array items closed => do
    let inner ← source.enter
    let values ← items.mapM (d inner)
    if closed then .ok values else .error .malformed
  | r => .error r.mismatch

mutual

/-- Any document; of a repeated member the last one counts. -/
def json (source : Source) : Reading → Except Problem Json
  | .null => .ok .null
  | .bool b => .ok (.bool b)
  | .number (some n) => .ok (.number n)
  | .string (some s) => .ok (.string s)
  | .array items closed => do
    let inner ← source.enter
    let values ← jsonItems inner items
    if closed then .ok (.array values) else .error .malformed
  | .object members closed => do
    let inner ← source.enter
    let values ← jsonMembers inner members
    if closed then .ok (.mk values) else .error .malformed
  | .number none | .string none | .broken => .error .malformed

def jsonItems (source : Source) : List Reading → Except Problem (List Json)
  | [] => .ok []
  | x :: xs => do
    let value ← json source x
    let values ← jsonItems source xs
    .ok (value :: values)

def jsonMembers (source : Source) :
    List (Option String × Reading) → Except Problem (List (String × Json))
  | [] => .ok []
  | (none, _) :: _ => .error .malformed
  | (some name, x) :: ms => do
    let value ← json source x
    let values ← jsonMembers source ms
    .ok ((name, value) :: values)

end

/-- The members of an object, in the order of their names. -/
def members : Decoder (List (String × Json)) := fun source r =>
  match r with
  | .object entries closed => do
    let inner ← source.enter
    let values ← jsonMembers inner entries
    if closed then .ok (ofMembers values) else .error .malformed
  | r => .error r.mismatch

/-- One of several words, or an object with the word as the name of its one member, null. -/
def choice (options : List (String × α)) : Decoder α := fun source r =>
  let pick (name : String) : Except Problem α :=
    match options.lookup name with
    | some a => .ok a
    | none => .error .misfit
  match r with
  | .string (some s) => pick s
  | .object ((some name, value) :: more) closed => do
    let _ ← source.enter
    let a ← pick name
    match value with
    | .null => if more.isEmpty && closed then .ok a else .error source.unexpected
    | value => .error value.mismatch
  | _ => .error source.unexpected

end Decoder

/-- The outcome for a part of a record; a problem comes with its place, the number of members
before it. -/
inductive Located (α : Type) where
  | ok (a : α)
  | fault (place : Nat) (problem : Problem)

namespace Located

def map (f : α → β) : Located α → Located β
  | ok a => ok (f a)
  | fault place problem => fault place problem

/-- Both parts; of two problems the one that comes first. -/
def both : Located (α → β) → Located α → Located β
  | ok f, ok a => ok (f a)
  | ok _, fault place problem => fault place problem
  | fault place problem, ok _ => fault place problem
  | fault place problem, fault place' problem' =>
    if place' < place then fault place' problem' else fault place problem

instance : Applicative Located where
  pure := ok
  map := map
  seq f a := both f (a ())

end Located

/-- The members of a record as a document gives them. -/
structure Fields where
  source : Source
  entries : List (String × Nat × Reading)
  faults : List (Nat × Problem)
  size : Nat

namespace Fields

/-- The members of an object from a given place on: known names are kept, a repeated one is a
fault, and any other member only has to be sound. -/
def ofMembers (names : List String) (place : Nat) :
    List (Option String × Reading) →
      List (String × Nat × Reading) × List (Nat × Problem) →
        List (String × Nat × Reading) × List (Nat × Problem)
  | [], found => found
  | (none, _) :: ms, (entries, faults) =>
    ofMembers names (place + 1) ms (entries, (place, .malformed) :: faults)
  | (some name, value) :: ms, (entries, faults) =>
    let found :=
      if name ∈ names then
        if entries.any (·.1 == name) then (entries, (place, .misfit) :: faults)
        else ((name, place, value) :: entries, faults)
      else if value.isSound then (entries, faults)
      else (entries, (place, .malformed) :: faults)
    ofMembers names (place + 1) ms found

/-- The members of a record with these names, from an object, or from an array in their order. -/
def ofReading (names : List String) : Decoder Fields := fun source r =>
  match r with
  | .object members closed => do
    let inner ← source.enter
    let (entries, faults) := ofMembers names 0 members ([], [])
    let size := members.length
    .ok ⟨inner, entries, if closed then faults else (size, .malformed) :: faults, size⟩
  | .array items closed => do
    let inner ← source.enter
    let entries := (names.zip items).mapIdx fun place (name, value) => (name, place, value)
    let size := items.length
    let tooMany := if names.length < size then [(names.length, source.unexpected)] else []
    .ok ⟨inner, entries, if closed then tooMany else (size, .malformed) :: tooMany, size⟩
  | r => .error r.mismatch

def find? (fields : Fields) (name : String) : Option (Nat × Reading) :=
  fields.entries.lookup name

/-- A member that may be missing. -/
def defaulted (fields : Fields) (name : String) (d : Decoder α) (default : α) : Located α :=
  match fields.find? name with
  | none => .ok default
  | some (place, value) =>
    match d fields.source value with
    | .ok a => .ok a
    | .error problem => .fault place problem

/-- A member that may not be missing; that it is shows behind the last member. -/
def required (fields : Fields) (name : String) (d : Decoder α) : Located α :=
  match fields.find? name with
  | none => .fault (fields.size + 1) .misfit
  | some (place, value) =>
    match d fields.source value with
    | .ok a => .ok a
    | .error problem => .fault place problem

/-- A member that may be missing or null. -/
def optional (fields : Fields) (name : String) (d : Decoder α) : Located (Option α) :=
  fields.defaulted name d.option none

/-- The outcome for the whole record: its first problem, if there is one. -/
def settle (fields : Fields) (outcome : Located α) : Except Problem α :=
  let first := fields.faults.foldl
    (fun found (place, problem) => (Located.fault place problem).both found) outcome
  match first with
  | .ok a => .ok a
  | .fault _ problem => .error problem

end Fields

namespace Decoder

/-- A record with these member names. -/
def record (names : List String) (build : Fields → Located α) : Decoder α := fun source r => do
  let fields ← Fields.ofReading names source r
  fields.settle (build fields)

/-- Reads a value from a text that holds nothing else. -/
def decodeText (d : Decoder α) (s : String) : Except Problem α := do
  let document := Document.ofText s
  let value ← d (.text maxDepth) document.value
  if document.rest.isEmpty then .ok value else .error .malformed

/-- Reads a value from the front of a text. -/
def decodeFront (d : Decoder α) (s : String) : Except Problem α :=
  d (.text maxDepth) (Document.ofText s).value

/-- Reads a value from a document. -/
def decodeJson (d : Decoder α) (document : Json) : Except Problem α :=
  d .value (.ofJson document)

end Decoder

/-- The document that a text writes. -/
def ofText? (s : String) : Except Problem Json :=
  Decoder.decodeText Decoder.json s

end CustomerSegments.Json
