import CustomerSegments.Json.Text
import CustomerSegments.Predicate.Matching
import CustomerSegments.Redis.Command
import CustomerSegments.Redis.Layout
import CustomerSegments.Store.Call

namespace CustomerSegments.Redis

/-- A task over a server. -/
abbrev Action := Task Command Command.Reply

/-- A task over a server that may fail. -/
abbrev Operation := Attempt Command Command.Reply

/-- Sends one command. -/
def send (c : Command) : Operation c.Result :=
  ExceptT.mk do
    match ← Task.backend c with
    | .ok result => pure (.ok result)
    | .error refusal => pure (.error (.store (.refused refusal)))

/-- Reads a stored record. -/
def decode (d : Json.Decoder α) (text : String) : Except Error α :=
  match d.decodeText text with
  | .ok a => .ok a
  | .error problem => .error (.serialization problem)

/-- Stores a record. -/
def put (key text : String) : Operation Unit :=
  send (.set key text)

/-- Loads the record under a key. -/
def fetch (d : Json.Decoder α) (key : String) : Operation (Option α) := do
  match ← send (.get key) with
  | none => pure none
  | some text => some <$> Attempt.settled (decode d text)

/-- Loads the records under the keys of every page; a key without a record is passed over. -/
def loadPages (d : Json.Decoder α) : List (List String) → Operation (List α)
  | [] => pure []
  | keys :: rest => do
    let texts ← send (.mget keys)
    let records ← Attempt.settled ((texts.filterMap id).mapM (decode d))
    let others ← loadPages d rest
    pure (records ++ others)

/-- Loads the record of every id in a set. -/
def loadAll (l : Layout) (d : Json.Decoder α) (set : String) (keyOf : String → String) :
    Operation (List α) := do
  let ids ← send (.smembers set)
  loadPages d ((pages l.pageSize ids).map (·.map keyOf))

/-- A stored audience size. -/
def size? (text : String) : Except Error Int64 :=
  match Decimal.int64? text.toList with
  | some n => .ok (Int64.ofInt n)
  | none => .error (.store .unreadable)

namespace Layout

def getCustomer (l : Layout) (id : Uuid) : Operation (Option Customer) :=
  fetch Customer.decoder (l.customerKey id.text)

def insertCustomer (l : Layout) (c : Customer) : Operation Unit := do
  put (l.customerKey c.id.text) c.text
  send (.sadd l.customersKey c.id.text)

def updateCustomer (l : Layout) (c : Customer) : Operation Unit := do
  let present ← send (.contains (l.customerKey c.id.text))
  if present then put (l.customerKey c.id.text) c.text
  else throw (.missing .customer c.id)

def deleteCustomer (l : Layout) (id : Uuid) : Operation (Option Customer) := do
  let found ← l.getCustomer id
  if found.isSome then
    send (.del (l.customerKey id.text))
    send (.srem l.customersKey id.text)
  pure found

def listCustomers (l : Layout) : Operation (List Customer) := do
  let customers ← loadAll l Customer.decoder l.customersKey l.customerKey
  pure (Store.newestFirst Customer.createdAt customers)

/-- Takes a segment from a customer, and says whether it was there. The record is swapped only if
nobody changed it meanwhile, and read again otherwise, in so many rounds. -/
def stripSegment (l : Layout) (now : Instant) (segment customer : Uuid) : Nat → Operation Bool
  | 0 => throw (.store (.contended customer segment))
  | rounds + 1 => do
    let key := l.customerKey customer.text
    match ← send (.get key) with
    | none => pure false
    | some text =>
      let c ← Attempt.settled (decode Customer.decoder text)
      if segment ∈ c.segments then
        let swapped ← send (.compareAndSet key text (c.strip segment now).text)
        if swapped then pure true else l.stripSegment now segment customer rounds
      else pure false

/-- The rounds in which a record may change before a swap is given up. -/
def swapRounds : Nat := 8

/-- Takes a segment from the customers among some that hold it, and counts them. -/
def stripAll (l : Layout) (now : Instant) (segment : Uuid) : List Customer → Operation Nat
  | [] => pure 0
  | c :: rest => do
    let stripped ←
      if segment ∈ c.segments then l.stripSegment now segment c.id swapRounds else pure false
    let others ← l.stripAll now segment rest
    pure (if stripped then others + 1 else others)

def removeSegmentFromAll (l : Layout) (segment : Uuid) : Operation Nat := do
  let now ← Attempt.now
  let customers ← l.listCustomers
  l.stripAll now segment customers

/-- Claims the name first, so that only one of several segments gets it. -/
def insertSegment (l : Layout) (s : Segment) : Operation Unit := do
  let claimed ← send (.hsetnx l.namesKey s.name s.id.text)
  if claimed then
    put (l.segmentKey s.id.text) s.text
    send (.sadd l.segmentsKey s.id.text)
    send (.hset l.audienceKey s.id.text (String.ofList (Decimal.ofInt s.audienceSize.toInt)))
  else throw (.duplicateName s.name)

/-- The record of a segment without the audience size kept apart from it. -/
def segmentRecord (l : Layout) (id : Uuid) : Operation (Option Segment) :=
  fetch Segment.decoder (l.segmentKey id.text)

def audienceSize (l : Layout) (id : Uuid) : Operation Int64 := do
  match ← send (.hget l.audienceKey id.text) with
  | none => pure 0
  | some text => Attempt.settled (size? text)

def getSegment (l : Layout) (id : Uuid) : Operation (Option Segment) := do
  match ← l.segmentRecord id with
  | none => pure none
  | some s => pure (some { s with audienceSize := ← l.audienceSize id })

def findSegmentByName (l : Layout) (name : String) : Operation (Option Segment) := do
  match (← send (.hget l.namesKey name)).bind Uuid.ofText? with
  | none => pure none
  | some id => l.getSegment id

/-- Moves a segment to a new name: the new name is claimed before the old one is given up. -/
def rename (l : Layout) (id : Uuid) (old new : String) : Operation Unit := do
  let claimed ← send (.hsetnx l.namesKey new id.text)
  if !claimed then
    let owner ← send (.hget l.namesKey new)
    if owner ≠ some id.text then throw (.duplicateName new)
  send (.hdel l.namesKey old)

def updateSegment (l : Layout) (s : Segment) : Operation Unit := do
  match ← l.segmentRecord s.id with
  | none => throw (.missing .segment s.id)
  | some old =>
    if old.name ≠ s.name then l.rename s.id old.name s.name
    put (l.segmentKey s.id.text) s.text

def deleteSegment (l : Layout) (id : Uuid) : Operation (Option Segment) := do
  match ← l.getSegment id with
  | none => pure none
  | some s =>
    send (.del (l.segmentKey id.text))
    send (.srem l.segmentsKey id.text)
    send (.hdel l.namesKey s.name)
    send (.hdel l.audienceKey id.text)
    pure (some s)

def listSegments (l : Layout) : Operation (List Segment) := do
  let segments ← loadAll l Segment.decoder l.segmentsKey l.segmentKey
  let rows ← send (.hgetall l.audienceKey)
  let sizes ← Attempt.settled (rows.mapM fun (id, text) => do .ok (id, ← size? text))
  let sized := segments.map fun s => { s with audienceSize := (sizes.lookup s.id.text).getD 0 }
  pure (Store.newestFirst Segment.createdAt sized)

def setAudienceSize (l : Layout) (id : Uuid) (size : Int64) : Operation Unit := do
  let written ← send (.setIfLive l.segmentsKey l.audienceKey id.text size.toInt)
  if !written then throw (.missing .segment id)

def incrementAudienceSize (l : Layout) (id : Uuid) (delta : Int64) : Operation Int64 := do
  match ← send (.incrementIfLive l.segmentsKey l.audienceKey id.text delta.toInt) with
  | none => throw (.missing .segment id)
  | some size => pure (Int64.ofInt size)

/-- The commands for a call. -/
def operation (l : Layout) : (c : Store.Call) → Operation c.Result
  | .insertCustomer c => l.insertCustomer c
  | .getCustomer id => l.getCustomer id
  | .updateCustomer c => l.updateCustomer c
  | .deleteCustomer id => l.deleteCustomer id
  | .listCustomers => l.listCustomers
  | .countMatching p => do
    let customers ← l.listCustomers
    pure (customers.countP fun c => p.holds c.toJson)
  | .removeSegmentFromAll segment => l.removeSegmentFromAll segment
  | .insertSegment s => l.insertSegment s
  | .getSegment id => l.getSegment id
  | .findSegmentByName name => l.findSegmentByName name
  | .updateSegment s => l.updateSegment s
  | .deleteSegment id => l.deleteSegment id
  | .listSegments => l.listSegments
  | .setAudienceSize id size => l.setAudienceSize id size
  | .incrementAudienceSize id delta => l.incrementAudienceSize id delta
  | .ping => send .ping

/-- A task over a store as a task over a server that holds its records. -/
def realize (l : Layout) (task : Store.Action α) : Action α :=
  task.onBackend fun c => (l.operation c).run

end Layout

end CustomerSegments.Redis
