namespace CustomerSegments.Http

/-- The characters of a token. -/
def isTokenChar (c : Char) : Bool :=
  c.isAlphanum ||
    ['!', '#', '$', '%', '&', '\x27', '*', '+', '-', '.', '^', '_', '\x60', '|', '~'].contains c

/-- What may stand inside quotes. -/
def isQuotable (c : Char) : Bool :=
  31 < c.toNat && c.toNat ≠ 127

/-- A type and a subtype as they are written, and what stands behind them. -/
structure MediaType where
  type : List Char
  subtype : List Char
  parameters : List Char

namespace MediaType

/-- Where the reader of parameters is: before a name, in a name, before a value, in a plain
value, in quotes, or behind the closing quote. -/
inductive Place where
  | start
  | name
  | value
  | plain
  | quoted (empty : Bool)
  | closed

/-- Parameters are well formed: `name=value` with semicolons between them. -/
def parametersOk : Place → List Char → Bool
  | .start, [] => true
  | .start, c :: cs =>
    if c = ' ' then parametersOk .start cs else isTokenChar c && parametersOk .name cs
  | .name, [] => false
  | .name, c :: cs =>
    if c = '=' then parametersOk .value cs else isTokenChar c && parametersOk .name cs
  | .value, [] => true
  | .value, c :: cs =>
    if c = '"' then parametersOk (.quoted true) cs else isTokenChar c && parametersOk .plain cs
  | .plain, [] => true
  | .plain, c :: cs =>
    if c = ';' then parametersOk .start cs else isTokenChar c && parametersOk .plain cs
  | .quoted _, [] => false
  | .quoted empty, c :: cs =>
    if c = '"' && !empty then parametersOk .closed cs
    else isQuotable c && parametersOk (.quoted false) cs
  | .closed, [] => true
  | .closed, c :: cs =>
    if c = ';' then parametersOk .start cs else c = ' ' && parametersOk .closed cs

/-- Reads a media type. -/
def ofText? (s : String) : Option MediaType :=
  let cs := s.toList
  let type := cs.takeWhile isTokenChar
  match cs.dropWhile isTokenChar with
  | '/' :: rest =>
    let subtype := rest.takeWhile isTokenChar
    let parameters := rest.dropWhile isTokenChar
    let wellFormed :=
      match parameters with
      | [] => true
      | c :: cs => !subtype.isEmpty && (c = ';' || c = ' ') && parametersOk .start cs
    if !type.isEmpty && wellFormed then some ⟨type, subtype, parameters⟩ else none
  | _ => none

/-- The subtype up to the last plus sign behind its first character, and what follows the sign. -/
def splitSuffix (subtype : List Char) : List Char × Option (List Char) :=
  let suffix := (subtype.reverse.takeWhile (· ≠ '+')).reverse
  let stem := subtype.take (subtype.length - suffix.length - 1)
  if subtype.contains '+' && !stem.isEmpty then (stem, some suffix) else (subtype, none)

/-- A media type for JSON: `application/json`, or another one of applications that is written as
JSON. -/
def isJson (m : MediaType) : Bool :=
  let lower (cs : List Char) := String.ofList (cs.map Char.toLower)
  let (stem, suffix) := splitSuffix m.subtype
  lower m.type = "application" && (lower stem = "json" || suffix.map lower = some "json")

end MediaType

end CustomerSegments.Http
