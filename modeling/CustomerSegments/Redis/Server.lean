import CustomerSegments.Redis.Command
import CustomerSegments.Store.Table

namespace CustomerSegments.Redis

/-- What a key holds. -/
inductive Entry where
  | string (value : String)
  | set (members : Table String Unit)
  | hash (fields : Table String String)

/-- The keys of a server. Sets and hashes that become empty are removed. -/
abbrev Server := Table String Entry

namespace Server

/-- The string under a key. -/
def string? (s : Server) (key : String) : Except Refusal (Option String) :=
  match s.get? key with
  | none => .ok none
  | some (.string value) => .ok (some value)
  | some _ => .error .wrongType

/-- The set under a key; no key is an empty set. -/
def set? (s : Server) (key : String) : Except Refusal (Table String Unit) :=
  match s.get? key with
  | none => .ok .empty
  | some (.set members) => .ok members
  | some _ => .error .wrongType

/-- The hash under a key; no key is an empty hash. -/
def hash? (s : Server) (key : String) : Except Refusal (Table String String) :=
  match s.get? key with
  | none => .ok .empty
  | some (.hash fields) => .ok fields
  | some _ => .error .wrongType

def putSet (s : Server) (key : String) (members : Table String Unit) : Server :=
  if members.isEmpty then s.erase key else s.insert key (.set members)

def putHash (s : Server) (key : String) (fields : Table String String) : Server :=
  if fields.isEmpty then s.erase key else s.insert key (.hash fields)

/-- A number in a hash: no plus sign, no leading zeros, nothing around it. -/
def counter? (text : String) : Option Int :=
  (Decimal.int64? text.toList).filter fun n => String.ofList (Decimal.ofInt n) = text

/-- The number under a field after an addition. -/
def added? (fields : Table String String) (field : String) (delta : Int) :
    Except Refusal Int := do
  let old ← match fields.get? field with
    | none => .ok 0
    | some text =>
      match counter? text with
      | some n => .ok n
      | none => .error .notInteger
  let new := old + delta
  if -9223372036854775808 ≤ new ∧ new ≤ 9223372036854775807 then .ok new else .error .overflow

/-- The double nearest to a natural number: its 53 leading bits, rounded to the even one of two
that are equally near. -/
def nearestDouble (n : Nat) : Nat :=
  let unit := 1 <<< (n.log2 - 52)
  let low := n / unit
  let twice := 2 * (n % unit)
  (if twice < unit ∨ (twice = unit ∧ low % 2 = 0) then low else low + 1) * unit

/-- An integer as a script gives it back: through a double. One that does not fit 64 bits comes back
as the least integer, which is what the processor makes of it. -/
def throughScript (n : Int) : Int :=
  let near : Int := if n < 0 then -(nearestDouble n.natAbs : Int) else nearestDouble n.natAbs
  if -9223372036854775808 ≤ near ∧ near ≤ 9223372036854775807 then near
  else -9223372036854775808

/-- Sets a field of a hash. -/
def setField (s : Server) (key field value : String) : Except Refusal Server := do
  let fields ← s.hash? key
  .ok (s.putHash key (fields.insert field value))

/-- What a command answers, and the server after it; none for a refusal, which changes nothing. -/
def execute (s : Server) : (c : Command) → Except Refusal (c.Result × Server)
  | .ping => .ok ((), s)
  | .get key => do .ok (← s.string? key, s)
  | .set key value => .ok ((), s.insert key (.string value))
  | .del key => .ok ((), s.erase key)
  | .contains key => .ok (s.contains key, s)
  | .mget keys =>
    .ok (keys.map fun key => ((s.string? key).toOption).join, s)
  | .sadd key element => do
    let members ← s.set? key
    .ok ((), s.putSet key (members.insert element ()))
  | .srem key element => do
    let members ← s.set? key
    .ok ((), s.putSet key (members.erase element))
  | .smembers key => do .ok ((← s.set? key).keys, s)
  | .hget key field => do .ok ((← s.hash? key).get? field, s)
  | .hset key field value => do .ok ((), ← s.setField key field value)
  | .hsetnx key field value => do
    let fields ← s.hash? key
    if fields.contains field then .ok (false, s)
    else .ok (true, s.putHash key (fields.insert field value))
  | .hdel key field => do
    let fields ← s.hash? key
    .ok ((), s.putHash key (fields.erase field))
  | .hgetall key => do .ok ((← s.hash? key).entries, s)
  | .incrementIfLive live hash field delta => do
    let members ← s.set? live
    if members.contains field then
      let fields ← s.hash? hash
      let new ← added? fields field delta
      let value := String.ofList (Decimal.ofInt new)
      .ok (some (throughScript new), s.putHash hash (fields.insert field value))
    else .ok (none, s)
  | .setIfLive live hash field value => do
    let members ← s.set? live
    if members.contains field then
      .ok (true, ← s.setField hash field (String.ofList (Decimal.ofInt value)))
    else .ok (false, s)
  | .compareAndSet key expected replacement => do
    let found ← s.string? key
    if found = some expected then .ok (true, s.insert key (.string replacement))
    else .ok (false, s)

/-- Answers a command. -/
def answer (c : Command) (s : Server) : c.Reply × Server :=
  match s.execute c with
  | .ok (result, s) => (.ok result, s)
  | .error refusal => (.error refusal, s)

end Server

end CustomerSegments.Redis
