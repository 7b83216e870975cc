import CustomerSegments.Decimal.Digits
import CustomerSegments.Text.Lower

namespace CustomerSegments.Config

/-- A setting before its type is known. -/
inductive Value where
  | missing
  | flag (b : Bool)
  | integer (n : Int)
  | float (x : Float)
  | text (s : String)
  | list (items : List Value)
  | table (entries : List (String × Value))

namespace Value

instance : Inhabited Value := ⟨missing⟩

/-- The entries of a table; any other value gives way to an empty table. -/
def entriesOf : Value → List (String × Value)
  | table entries => entries
  | _ => []

/-- The items of a list; any other value gives way to an empty list. -/
def itemsOf : Value → List Value
  | list items => items
  | _ => []

/-- Puts an entry in the place of the one of its name, or behind all others. -/
def putEntry (name : String) (value : Value) : List (String × Value) → List (String × Value)
  | [] => [(name, value)]
  | (k, v) :: rest => if k = name then (k, value) :: rest else (k, v) :: putEntry name value rest

mutual

/-- Sets a member of a value, which becomes a table if it is none. A table is merged into the one
that is there; names are kept in lower case. -/
def setMember (name : String) : (value parent : Value) → Value
  | .table incoming, parent =>
    let entries := parent.entriesOf
    let old := (entries.lookup (Text.lower name)).getD (table [])
    table (putEntry (Text.lower name) (mergeEntries incoming old) entries)
  | .missing, parent => put name missing parent
  | .flag b, parent => put name (flag b) parent
  | .integer n, parent => put name (integer n) parent
  | .float x, parent => put name (float x) parent
  | .text s, parent => put name (text s) parent
  | .list items, parent => put name (list items) parent
where
  put (name : String) (value parent : Value) : Value :=
    table (putEntry (Text.lower name) value parent.entriesOf)

def mergeEntries : (incoming : List (String × Value)) → (target : Value) → Value
  | [], target => target
  | (name, value) :: rest, target => mergeEntries rest (setMember name value target)

end

/-- The place of an index in a list of a given length; a negative one counts from the end. -/
def place (index : Int) (length : Nat) : Nat :=
  if 0 ≤ index then index.toNat else length - index.natAbs

/-- Changes an item of a list, which is filled up if it is too short. -/
def modifyItem (index : Int) (f : Value → Value) (parent : Value) : Value :=
  let items := parent.itemsOf
  let i := place index items.length
  let filled := items ++ List.replicate (i + 1 - items.length) missing
  list (filled.modify i f)

/-- Changes an entry of a table. -/
def modifyEntry (name : String) (f : Value → Value) (parent : Value) : Value :=
  let entries := parent.entriesOf
  let name := Text.lower name
  table (putEntry name (f ((entries.lookup name).getD missing)) entries)

end Value

/-- One step into a value. -/
inductive Step where
  | member (name : String)
  | item (index : Int)
deriving DecidableEq

/-- Sets what lies at the end of some steps. -/
def setAt (value : Value) : List Step → Value → Value
  | [], v => v
  | [.member name], v => Value.setMember name value v
  | [.item index], v => v.modifyItem index fun _ => value
  | .member name :: rest, v => v.modifyEntry name (setAt value rest)
  | .item index :: rest, v => v.modifyItem index (setAt value rest)

/-- The characters of a plain name. -/
def isNameChar (c : Char) : Bool :=
  c.isAlphanum || c = ' ' || c = '_' || c = '-'

def isIndexBlank (c : Char) : Bool :=
  c = ' ' || c = '\t' || c = '\r' || c = '\n'

/-- The index in brackets at the front, behind the opening one. -/
def index? (cs : List Char) : Option (Int × List Char) :=
  let cs := cs.dropWhile isIndexBlank
  let (negative, cs) := match cs with
    | '-' :: cs => (true, cs)
    | cs => (false, cs)
  let digits := cs.takeWhile Decimal.isDigit
  let n : Int := if negative then -(Decimal.ofDigits digits : Int) else Decimal.ofDigits digits
  if digits.isEmpty || n < -9223372036854775808 || 9223372036854775807 < n then none
  else
    match (cs.dropWhile Decimal.isDigit).dropWhile isIndexBlank with
    | ']' :: rest => some (n, rest)
    | _ => none

/-- The steps behind the first one, at most so many. -/
def furtherSteps? : Nat → List Char → Option (List Step)
  | _, [] => some []
  | 0, _ => none
  | fuel + 1, '.' :: cs =>
    let name := cs.takeWhile isNameChar
    if name.isEmpty then none
    else (furtherSteps? fuel (cs.dropWhile isNameChar)).map (.member (String.ofList name) :: ·)
  | fuel + 1, '[' :: cs =>
    (index? cs).bind fun (n, rest) => (furtherSteps? fuel rest).map (.item n :: ·)
  | _, _ => none

/-- The steps that a key writes: names with points between them and indices in brackets. A key of
another form is one name. -/
def stepsOf (key : String) : List Step :=
  let cs := key.toList
  let name := cs.takeWhile isNameChar
  let steps :=
    if name.isEmpty then none
    else (furtherSteps? cs.length (cs.dropWhile isNameChar)).map
      (.member (String.ofList name) :: ·)
  steps.getD [.member key]

/-- Sets what a key leads to. -/
def set (root : Value) (key : String) (value : Value) : Value :=
  setAt value (stepsOf key) root

end CustomerSegments.Config
