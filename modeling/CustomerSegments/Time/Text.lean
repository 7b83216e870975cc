import CustomerSegments.Decimal.Digits
import CustomerSegments.Json.Decoder
import CustomerSegments.Text.Blank
import CustomerSegments.Time.Instant

namespace CustomerSegments

namespace Instant

/-- The day in Greenwich. -/
def date (t : Instant) : Date :=
  .ofDays (t.second / 86400)

/-- The second of the day in Greenwich. -/
def secondOfDay (t : Instant) : Nat :=
  (t.second % 86400).toNat

/-- A year of four digits; a year before 0 or after 9999 carries its sign. -/
def yearText (year : Int) : List Char :=
  if 0 ≤ year ∧ year ≤ 9999 then Decimal.padded 4 year.toNat
  else (if year < 0 then '-' else '+') :: Decimal.padded 4 year.natAbs

/-- No fraction, or three, six or nine digits: the fewest that are exact. -/
def fractionText (nano : Nat) : List Char :=
  if nano = 0 then []
  else if nano % 1000000 = 0 then '.' :: Decimal.padded 3 (nano / 1000000)
  else if nano % 1000 = 0 then '.' :: Decimal.padded 6 (nano / 1000)
  else '.' :: Decimal.padded 9 nano

/-- The text of an instant in Greenwich, with a given mark of the zone. -/
def chars (zone : List Char) (t : Instant) : List Char :=
  let d := t.date
  let s := t.secondOfDay
  let leap := t.nano / 1000000000
  yearText d.year ++ '-' :: Decimal.padded 2 d.month ++ '-' :: Decimal.padded 2 d.day ++
    'T' :: Decimal.padded 2 (s / 3600) ++ ':' :: Decimal.padded 2 (s / 60 % 60) ++
    ':' :: Decimal.padded 2 (s % 60 + leap) ++ fractionText (t.nano % 1000000000) ++ zone

/-- The text of an instant in documents. -/
def text (t : Instant) : String :=
  String.ofList (t.chars ['Z'])

/-- The text of an instant in filters. -/
def filterText (t : Instant) : String :=
  String.ofList (t.chars ['+', '0', '0', ':', '0', '0'])

end Instant

/-- The fields of a written timestamp. -/
structure Timestamp where
  date : Date
  hour : Nat
  minute : Nat
  second : Nat
  nano : Nat
  /-- minutes ahead of Greenwich -/
  offset : Int

namespace Timestamp

/-- The instant of a timestamp; none if a field is out of range. The local day and the day in
Greenwich must both exist; second 60 is a leap second. -/
def instant? (t : Timestamp) : Option Instant :=
  if t.date.Valid ∧ -262143 ≤ t.date.year ∧ t.date.year ≤ 262142 ∧ t.hour < 24 ∧ t.minute < 60 ∧
      t.second ≤ 60 ∧ -1440 < t.offset ∧ t.offset < 1440 then
    let leap := t.second / 60
    Instant.of? (86400 * t.date.toDays + (3600 * t.hour + 60 * t.minute + (t.second - leap) : Nat) -
      60 * t.offset) (t.nano + 1000000000 * leap)
  else none

/-- A given character. -/
def expect (c : Char) : List Char → Option (List Char)
  | [] => none
  | d :: cs => if c = d then some cs else none

/-- The mark between a day and a time. -/
def timeMark : List Char → Option (List Char)
  | 'T' :: cs | 't' :: cs | ' ' :: cs => some cs
  | _ => none

/-- A fraction of a second, in nanoseconds; digits behind the ninth are dropped. -/
def fraction (cs : List Char) : Option (Nat × List Char) :=
  match cs with
  | '.' :: cs => do
    let run := cs.takeWhile Decimal.isDigit
    let (value, _) ← Decimal.take? 1 9 cs
    some (value * Nat.pow 10 (9 - min 9 run.length), cs.dropWhile Decimal.isDigit)
  | cs => some (0, cs)

/-- The distance from Greenwich in minutes: `Z`, or a sign, two digits of hours and two digits of
minutes with something between them. -/
def zone (between : List Char → Option (List Char)) :
    List Char → Option (Int × List Char)
  | 'Z' :: cs | 'z' :: cs => some (0, cs)
  | sign :: cs => do
    let negative ← match sign with
      | '+' => some false
      | '-' | '−' => some true
      | _ => none
    let (hours, cs) ← Decimal.take? 2 2 cs
    let cs ← between cs
    let (minutes, cs) ← Decimal.take? 2 2 cs
    if 59 < minutes then none
    else
      let distance : Int := 60 * hours + minutes
      some (if negative then -distance else distance, cs)
  | [] => none

/-- A timestamp by the internet profile: every field in its full width, and nothing around it. -/
def strict? (cs : List Char) : Option Timestamp := do
  let (year, cs) ← Decimal.take? 4 4 cs
  let cs ← expect '-' cs
  let (month, cs) ← Decimal.take? 2 2 cs
  let cs ← expect '-' cs
  let (day, cs) ← Decimal.take? 2 2 cs
  let cs ← timeMark cs
  let (hour, cs) ← Decimal.take? 2 2 cs
  let cs ← expect ':' cs
  let (minute, cs) ← Decimal.take? 2 2 cs
  let cs ← expect ':' cs
  let (second, cs) ← Decimal.take? 2 2 cs
  let (nano, cs) ← fraction cs
  let (offset, cs) ← zone (expect ':') cs
  if cs.isEmpty then some ⟨⟨year, month, day⟩, hour, minute, second, nano, offset⟩ else none

/-- A year: up to four digits, or any number of digits behind a sign. -/
def freeYear (cs : List Char) : Option (Int × List Char) :=
  match cs with
  | '-' :: cs => (Decimal.take? 1 cs.length cs).map fun (n, cs) => (-(n : Int), cs)
  | '+' :: cs => (Decimal.take? 1 cs.length cs).map fun (n, cs) => ((n : Int), cs)
  | cs => (Decimal.take? 1 4 cs).map fun (n, cs) => ((n : Int), cs)

/-- One or two digits behind any blank characters. -/
def freeField (cs : List Char) : Option (Nat × List Char) :=
  Decimal.take? 1 2 (Text.trimStart cs)

/-- A mark behind any blank characters. -/
def freeMark (c : Char) (cs : List Char) : Option (List Char) :=
  expect c (Text.trimStart cs)

/-- The zone `UTC`, in any case, or a distance with blank characters or colons between its
hours and its minutes. -/
def freeZone (cs : List Char) : Option (Int × List Char) :=
  if (cs.take 3).map Char.toUpper = ['U', 'T', 'C'] then some (0, cs.drop 3)
  else zone (fun cs => some (cs.dropWhile fun c => c = ':' || Text.isBlank c)) cs

/-- A timestamp as people write it: fields may be short and blank characters may stand around
them. -/
def lenient? (cs : List Char) : Option Timestamp := do
  let (year, cs) ← freeYear (Text.trimStart cs)
  let cs ← freeMark '-' cs
  let (month, cs) ← freeField cs
  let cs ← freeMark '-' cs
  let (day, cs) ← freeField cs
  let cs ← timeMark cs
  let (hour, cs) ← freeField cs
  let cs ← freeMark ':' cs
  let (minute, cs) ← freeField cs
  let cs ← freeMark ':' cs
  let (second, cs) ← freeField cs
  let (nano, cs) ← fraction cs
  let (offset, cs) ← freeZone (Text.trimStart cs)
  if (Text.trimStart cs).isEmpty then
    some ⟨⟨year, month, day⟩, hour, minute, second, nano, offset⟩
  else none

end Timestamp

namespace Instant

/-- The instant that a text by the internet profile names. -/
def ofStrict? (s : String) : Option Instant :=
  (Timestamp.strict? s.toList).bind Timestamp.instant?

/-- The instant that a timestamp in a document names. -/
def ofText? (s : String) : Option Instant :=
  (Timestamp.lenient? s.toList).bind Timestamp.instant?

def toJson (t : Instant) : Json :=
  .string t.text

def decoder : Json.Decoder Instant :=
  Json.Decoder.string.check ofText?

end Instant

end CustomerSegments
