import CustomerSegments.Json.Text
import CustomerSegments.Redis.Server
import CustomerSegments.Time.Instant

namespace CustomerSegments.Redis

/-- A write that a client makes by itself. -/
inductive Write where
  | put (entry : Entry)
  | remove
  /-- puts a space behind a string, so that a record stays the same and its text does not -/
  | touch

/-- Makes a write to a key. -/
def Server.write (s : Server) (key : String) : Write → Server
  | .put (.string value) => s.insert key (.string value)
  | .put (.set members) => s.putSet key members
  | .put (.hash fields) => s.putHash key fields
  | .remove => s.erase key
  | .touch =>
    match s.get? key with
    | some (.string value) => s.insert key (.string (value.push ' '))
    | _ => s

/-- Another client's write to a key right after each of so many commands with a given name and
the key among their arguments. -/
structure Intrusion where
  after : String
  key : String
  times : Nat
  write : Write

/-- A server, the names of the commands that it refuses for the time being, the other clients
that wait for a command, and the commands that were sent to it. -/
structure Traffic where
  server : Server
  refused : List String
  intrusions : List Intrusion
  sent : List Command

namespace Traffic

/-- A server with nothing in it. -/
def start : Traffic := ⟨.empty, [], [], []⟩

/-- Lets the other clients that wait for a command make their writes, one after the other. -/
def intrude (c : Command) : List Intrusion → Server → List Intrusion × Server
  | [], s => ([], s)
  | i :: rest, s =>
    if 0 < i.times ∧ i.after = c.name ∧ i.key ∈ c.arguments then
      let (rest, s) := intrude c rest (s.write i.key i.write)
      ({ i with times := i.times - 1 } :: rest, s)
    else
      let (rest, s) := intrude c rest s
      (i :: rest, s)

/-- Answers a command: a refused one does nothing by itself. -/
def answer (c : Command) (_ : Instant) (t : Traffic) : c.Reply × Traffic :=
  let (reply, server) : c.Reply × Server :=
    if c.name ∈ t.refused then (.error .unavailable, t.server) else t.server.answer c
  let (intrusions, server) := intrude c t.intrusions server
  (reply, { t with server := server, intrusions := intrusions, sent := t.sent ++ [c] })

end Traffic

/-- A command as it is noted down: by its name, and by the number of keys if there may be many. -/
def Command.label : Command → String
  | mget keys => "MGET " ++ String.ofList (Decimal.digits keys.length)
  | c => c.name

end CustomerSegments.Redis
