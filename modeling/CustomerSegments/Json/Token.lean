import CustomerSegments.Json.Number

namespace CustomerSegments.Json

/-- A token of JSON text. Text that no token continues is `stray`, and nothing follows it. -/
inductive Token where
  | openArray
  | closeArray
  | openObject
  | closeObject
  | comma
  | colon
  | null
  | bool (b : Bool)
  /-- none for a literal beyond every double -/
  | number (n : Option Number)
  /-- none for a text with half of a surrogate pair -/
  | string (s : Option String)
  | stray
deriving DecidableEq

/-- A piece of a quoted text: a character, or a sixteen-bit unit that is half of a pair. -/
inductive Piece where
  | char (c : Char)
  | half (unit : Nat)

/-- The place within a number literal. -/
inductive NumeralPlace where
  | sign
  | zero
  | whole
  | point
  | fraction
  | mark
  | markSign
  | power
deriving DecidableEq

namespace NumeralPlace

/-- The literal may go on with a character. -/
def step (place : NumeralPlace) (c : Char) : Option NumeralPlace :=
  match place with
  | sign => if c = '0' then some zero else if Decimal.isDigit c then some whole else none
  | zero => if c = '.' then some point else if c = 'e' ∨ c = 'E' then some mark else none
  | whole =>
    if Decimal.isDigit c then some whole
    else if c = '.' then some point
    else if c = 'e' ∨ c = 'E' then some mark
    else none
  | point => if Decimal.isDigit c then some fraction else none
  | fraction =>
    if Decimal.isDigit c then some fraction
    else if c = 'e' ∨ c = 'E' then some mark
    else none
  | mark =>
    if Decimal.isDigit c then some power
    else if c = '+' ∨ c = '-' then some markSign
    else none
  | markSign | power => if Decimal.isDigit c then some power else none

/-- The literal may end before a character, or at the end of the text. -/
def mayEnd (place : NumeralPlace) (next : Option Char) : Bool :=
  match place with
  | zero => !next.any Decimal.isDigit
  | whole | fraction | power => true
  | sign | point | mark | markSign => false

end NumeralPlace

/-- Where the scanner stands; what it has read of a token stands in reverse. -/
inductive Scan where
  | between
  | word (left : List Char) (token : Token)
  | numeral (place : NumeralPlace) (read : List Char)
  | quoted (read : List Piece)
  | escape (read : List Piece)
  | unit (read : List Piece) (digits value : Nat)

/-- The space between tokens. -/
def isSpace (c : Char) : Bool :=
  c = ' ' || c = '\n' || c = '\t' || c = '\r'

/-- The value of a hexadecimal digit. -/
def hexValue? (c : Char) : Option Nat :=
  if '0' ≤ c ∧ c ≤ '9' then some (c.toNat - 48)
  else if 'a' ≤ c ∧ c ≤ 'f' then some (c.toNat - 87)
  else if 'A' ≤ c ∧ c ≤ 'F' then some (c.toNat - 55)
  else none

/-- The character of a single-letter escape. -/
def unescape? (c : Char) : Option Char :=
  match c with
  | '"' => some '"'
  | '\\' => some '\\'
  | '/' => some '/'
  | 'b' => some '\x08'
  | 'f' => some '\x0c'
  | 'n' => some '\n'
  | 'r' => some '\r'
  | 't' => some '\t'
  | _ => none

/-- A sixteen-bit unit as a piece. -/
def Piece.ofUnit (unit : Nat) : Piece :=
  if 0xD800 ≤ unit ∧ unit < 0xE000 then half unit else char (Char.ofNat unit)

/-- Joins the halves of surrogate pairs; a half without its partner makes the text none. -/
def join : List Piece → Option (List Char)
  | [] => some []
  | .char c :: rest => (join rest).map (c :: ·)
  | .half high :: .half low :: rest =>
    if high < 0xDC00 ∧ 0xDC00 ≤ low then
      (join rest).map (Char.ofNat (0x10000 + (high - 0xD800) * 0x400 + (low - 0xDC00)) :: ·)
    else none
  | .half _ :: _ => none

/-- The number of a literal read in reverse. -/
def numberOf (read : List Char) : Token :=
  .number (Numeral.ofLiteral read.reverse).toNumber?

/-- The start of a token, or space: the tokens that are complete, and where the scanner stands. -/
def start (c : Char) : List Token × Option Scan :=
  if isSpace c then ([], some .between)
  else if c = '-' then ([], some (.numeral .sign ['-']))
  else if c = '0' then ([], some (.numeral .zero ['0']))
  else if Decimal.isDigit c then ([], some (.numeral .whole [c]))
  else
    match c with
    | '[' => ([.openArray], some .between)
    | ']' => ([.closeArray], some .between)
    | '{' => ([.openObject], some .between)
    | '}' => ([.closeObject], some .between)
    | ',' => ([.comma], some .between)
    | ':' => ([.colon], some .between)
    | '"' => ([], some (.quoted []))
    | 'n' => ([], some (.word ['u', 'l', 'l'] .null))
    | 't' => ([], some (.word ['r', 'u', 'e'] (.bool true)))
    | 'f' => ([], some (.word ['a', 'l', 's', 'e'] (.bool false)))
    | _ => ([.stray], none)

/-- One character: the tokens that it completes, and where the scanner stands then; none after
a stray character. -/
def Scan.step (scan : Scan) (c : Char) : List Token × Option Scan :=
  match scan with
  | between => start c
  | word [] _ => ([.stray], none)
  | word [l] token => if c = l then ([token], some between) else ([.stray], none)
  | word (l :: left) token => if c = l then ([], some (word left token)) else ([.stray], none)
  | numeral place read =>
    match place.step c with
    | some next => ([], some (numeral next (c :: read)))
    | none =>
      if place.mayEnd (some c) then
        let (tokens, next) := start c
        (numberOf read :: tokens, next)
      else ([.stray], none)
  | quoted read =>
    if c = '"' then ([.string ((join read.reverse).map String.ofList)], some between)
    else if c = '\\' then ([], some (escape read))
    else if c.toNat < 0x20 then ([.stray], none)
    else ([], some (quoted (.char c :: read)))
  | escape read =>
    if c = 'u' then ([], some (unit read 0 0))
    else
      match unescape? c with
      | some e => ([], some (quoted (.char e :: read)))
      | none => ([.stray], none)
  | unit read digits value =>
    match hexValue? c with
    | none => ([.stray], none)
    | some d =>
      if digits = 3 then ([], some (quoted (.ofUnit (16 * value + d) :: read)))
      else ([], some (unit read (digits + 1) (16 * value + d)))

/-- The tokens that the end of the text completes. -/
def Scan.finish : Scan → List Token
  | between => []
  | numeral place read => if place.mayEnd none then [numberOf read] else [.stray]
  | _ => [.stray]

/-- The tokens of a text, from a given place of the scanner. -/
def Scan.tokens (scan : Scan) : List Char → List Token
  | [] => scan.finish
  | c :: cs =>
    match scan.step c with
    | (done, some next) => done ++ next.tokens cs
    | (done, none) => done

/-- The tokens of a text. -/
def tokens (cs : List Char) : List Token :=
  Scan.between.tokens cs

end CustomerSegments.Json
