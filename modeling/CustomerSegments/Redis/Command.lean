import CustomerSegments.Decimal.Digits

namespace CustomerSegments.Redis

/-- Why a server refuses a command. -/
inductive Refusal where
  | unavailable
  | wrongType
  | notInteger
  | overflow
deriving DecidableEq, Repr

/-- The words of a refusal. -/
def Refusal.message : Refusal → String
  | unavailable => "An error was signalled by the server - ResponseError: unavailable"
  | wrongType => "WRONGTYPE: Operation against a key holding the wrong kind of value"
  | notInteger => "An error was signalled by the server - ResponseError: hash value is not an integer"
  | overflow =>
    "An error was signalled by the server - ResponseError: increment or decrement would overflow"

/-- The commands that are sent to a server. The last three are scripts, and each runs as one
command. -/
inductive Command where
  | ping
  | get (key : String)
  | set (key value : String)
  | del (key : String)
  | contains (key : String)
  | mget (keys : List String)
  | sadd (key element : String)
  | srem (key element : String)
  | smembers (key : String)
  | hget (key field : String)
  | hset (key field value : String)
  /-- sets a field that is not there yet -/
  | hsetnx (key field value : String)
  | hdel (key field : String)
  | hgetall (key : String)
  /-- adds to a field of a hash if the field's name is in a set -/
  | incrementIfLive (live hash field : String) (delta : Int)
  /-- sets a field of a hash if the field's name is in a set -/
  | setIfLive (live hash field : String) (value : Int)
  /-- replaces a string that is an expected one -/
  | compareAndSet (key expected replacement : String)
deriving DecidableEq, Repr

namespace Command

/-- What a reply holds if the command is not refused. -/
@[reducible]
def Result : Command → Type
  | get _ | hget _ _ => Option String
  | contains _ | hsetnx _ _ _ => Bool
  | mget _ => List (Option String)
  | smembers _ => List String
  | hgetall _ => List (String × String)
  | incrementIfLive _ _ _ _ => Option Int
  | setIfLive _ _ _ _ | compareAndSet _ _ _ => Bool
  | ping | set _ _ | del _ | sadd _ _ | srem _ _ | hset _ _ _ | hdel _ _ => Unit

def Reply (c : Command) : Type :=
  Except Refusal c.Result

/-- The name under which a server knows the command. -/
def name : Command → String
  | ping => "PING"
  | get _ => "GET"
  | set _ _ => "SET"
  | del _ => "DEL"
  | contains _ => "EXISTS"
  | mget _ => "MGET"
  | sadd _ _ => "SADD"
  | srem _ _ => "SREM"
  | smembers _ => "SMEMBERS"
  | hget _ _ => "HGET"
  | hset _ _ _ => "HSET"
  | hsetnx _ _ _ => "HSETNX"
  | hdel _ _ => "HDEL"
  | hgetall _ => "HGETALL"
  | incrementIfLive _ _ _ _ | setIfLive _ _ _ _ | compareAndSet _ _ _ => "EVAL"

/-- The texts that are sent along with the name. -/
def arguments : Command → List String
  | ping => []
  | get key | del key | contains key | smembers key | hgetall key => [key]
  | set key value => [key, value]
  | mget keys => keys
  | sadd key element | srem key element => [key, element]
  | hget key field | hdel key field => [key, field]
  | hset key field value | hsetnx key field value => [key, field, value]
  | incrementIfLive live hash field n | setIfLive live hash field n =>
    [live, hash, field, String.ofList (Decimal.ofInt n)]
  | compareAndSet key expected replacement => [key, expected, replacement]

end Command

end CustomerSegments.Redis
