import CustomerSegments.Decimal.Digits

namespace CustomerSegments.Net

/-- An address of the internet: four bytes, or eight groups of sixteen bits. -/
inductive Address where
  | v4 (bytes : List Nat)
  | v6 (groups : List Nat)
deriving DecidableEq, Repr

/-- The value of a hexadecimal digit. -/
def hexDigit? (c : Char) : Option Nat :=
  if '0' ≤ c ∧ c ≤ '9' then some (c.toNat - 48)
  else if 'a' ≤ c ∧ c ≤ 'f' then some (c.toNat - 87)
  else if 'A' ≤ c ∧ c ≤ 'F' then some (c.toNat - 55)
  else none

/-- A byte in decimal: no leading zero, at most 255. -/
def byte? (cs : List Char) : Option (Nat × List Char) :=
  let run := cs.takeWhile Decimal.isDigit
  let n := Decimal.ofDigits run
  if run = [] ∨ 3 < run.length ∨ (run.head? = some '0' ∧ run.length ≠ 1) ∨ 255 < n then none
  else some (n, cs.drop run.length)

/-- Bytes with points between them. -/
def bytes? : Nat → List Char → Option (List Nat × List Char)
  | 0, cs => some ([], cs)
  | 1, cs => (byte? cs).map fun (n, rest) => ([n], rest)
  | count + 2, cs => do
    let (n, rest) ← byte? cs
    match rest with
    | '.' :: rest => (bytes? (count + 1) rest).map fun (ns, rest) => (n :: ns, rest)
    | _ => none

/-- A group of one to four hexadecimal digits. -/
def group? (cs : List Char) : Option (Nat × List Char) :=
  let run := cs.takeWhile fun c => (hexDigit? c).isSome
  if run = [] ∨ 4 < run.length then none
  else some (run.foldl (fun n c => 16 * n + (hexDigit? c).getD 0) 0, cs.drop run.length)

/-- What separates a group from the one before it: a colon, and nothing in front of the first. -/
def separated (first : Bool) : List Char → Option (List Char)
  | ':' :: cs => if first then some (':' :: cs) else some cs
  | cs => if first then some cs else none

/-- Reads at most so many groups; the last two may be written as four bytes, and then nothing
may follow. -/
def groups : Nat → Bool → List Char → List Nat × Bool × List Char
  | 0, _, cs => ([], false, cs)
  | room + 1, first, cs =>
    match separated first cs with
    | none => ([], false, cs)
    | some rest =>
      let embedded := if 0 < room then bytes? 4 rest else none
      match embedded with
      | some ([a, b, c, d], rest) => ([256 * a + b, 256 * c + d], true, rest)
      | _ =>
        match group? rest with
        | none => ([], false, cs)
        | some (n, rest) =>
          let (ns, ended, rest) := groups room false rest
          (n :: ns, ended, rest)

/-- Eight groups, of which a run of zeros may be written as two colons. -/
def v6? (cs : List Char) : Option (List Nat) :=
  let (head, ended, rest) := groups 8 true cs
  if head.length = 8 then if rest.isEmpty then some head else none
  else if ended then none
  else
    match rest with
    | ':' :: ':' :: rest =>
      let (tail, _, rest) := groups (7 - head.length) true rest
      if rest.isEmpty then
        some (head ++ List.replicate (8 - head.length - tail.length) 0 ++ tail)
      else none
    | _ => none

/-- The address that a text writes. -/
def Address.ofText? (s : String) : Option Address :=
  match bytes? 4 s.toList with
  | some (bytes, []) => some (.v4 bytes)
  | _ => (v6? s.toList).map .v6

end CustomerSegments.Net
