import CustomerSegments.Http.MediaType
import CustomerSegments.Http.Message
import CustomerSegments.Http.Target
import CustomerSegments.Service.Customers
import CustomerSegments.Service.Segments

namespace CustomerSegments.Http

open Store

/-- A node that serves requests. -/
structure Node where
  id : String
  startedAt : Instant

/-- The value in the body of a request, which has to be marked as JSON. -/
def Request.decode (d : Json.Decoder α) (r : Request) : Except Rejection α :=
  if ((r.header? "content-type").bind MediaType.ofText?).any MediaType.isJson then
    match d.decodeFront r.body with
    | .ok a => .ok a
    | .error .malformed => .error .notJson
    | .error .misfit => .error .wrongShape
  else .error .notJsonType

/-- Serves the value in the body of a request. -/
def withBody (d : Json.Decoder α) (r : Request) (serve : α → Action Response) : Action Response :=
  match r.decode d with
  | .ok a => serve a
  | .error reason => pure (.rejection reason)

/-- Serves the id in a path. -/
def withId (part : List Char) (serve : Uuid → Action Response) : Action Response :=
  match idIn? part with
  | some id => serve id
  | none => pure (.rejection .badId)

/-- The response to an operation. -/
def outcome (operation : Operation α) (respond : α → Action Response) : Action Response := do
  match ← operation.run with
  | .ok a => respond a
  | .error e => pure (.failure e)

/-- Notes a success and responds to it. -/
def counted (metric : Metric) (response : Response) : Action Response := do
  Task.tally metric 1
  pure response

def segmentsDocument (segments : List Segment) : Json :=
  .array (segments.map Segment.toJson)

def customersDocument (customers : List Customer) : Json :=
  .array (customers.map Customer.toJson)

namespace Node

def health (node : Node) : Action Response := do
  let now ← Task.now
  return .json 200 (.mk [("status", .string "healthy"), ("node_id", .string node.id),
    ("uptime_secs", .ofNat ((now.nanoseconds - node.startedAt.nanoseconds) / 1000000000).toNat)])

/-- A node is ready while its store answers. -/
def readiness : Action Response := do
  match ← (call .ping).run with
  | .ok _ => pure (.empty 200)
  | .error _ => pure (.empty 503)

/-- Serves a method at an endpoint; none if the endpoint does not allow it. -/
def serve? (node : Node) (r : Request) : Endpoint → String → Option (Action Response)
  | .health, "GET" => some node.health
  | .ready, "GET" => some readiness
  | .live, "GET" => some (pure (.empty 200))
  | .preview, "POST" => some <| withBody PreviewRequest.decoder r fun request => do
    let size ← Audience.preview request.rules
    counted .segmentsPreviewed (.json 200 (PreviewResponse.mk (.ofNat size)).toJson)
  | .segments, "GET" => some <| outcome Segments.list fun segments =>
    pure (.json 200 (segmentsDocument segments))
  | .segments, "POST" => some <| withBody NewSegment.decoder r fun request =>
    outcome (Segments.create request r.actingUser) fun s =>
      counted .segmentsCreated (.json 201 s.toJson)
  | .segment part, "GET" => some <| withId part fun id =>
    outcome (Segments.get id) fun s => pure (.json 200 s.toJson)
  | .segment part, "PUT" => some <| withId part fun id =>
    withBody SegmentPatch.decoder r fun patch =>
      outcome (Segments.update id patch) fun s =>
        counted .segmentsUpdated (.json 200 s.toJson)
  | .segment part, "DELETE" => some <| withId part fun id =>
    outcome (Segments.delete id) fun _ => counted .segmentsDeleted (.empty 204)
  | .segmentSummary part, "GET" => some <| withId part fun id =>
    outcome (Segments.summary id) fun s => pure (.json 200 s.toJson)
  | .customers, "GET" => some <| outcome Customers.list fun customers =>
    pure (.json 200 (customersDocument customers))
  | .customers, "POST" => some <| withBody NewCustomer.decoder r fun request =>
    outcome (Customers.create request) fun change =>
      counted .customersCreated (.json 201 change.toJson)
  | .bulk, "POST" => some <| withBody (.list NewCustomer.decoder) r fun requests =>
    outcome (Customers.bulkImport requests) fun done => do
      Task.tally .customersCreated done.imported
      pure (.json 200 done.toJson)
  | .customer part, "GET" => some <| withId part fun id =>
    outcome (Customers.get id) fun c => pure (.json 200 c.toJson)
  | .customer part, "PUT" => some <| withId part fun id =>
    withBody CustomerPatch.decoder r fun patch =>
      outcome (Customers.update id patch) fun change =>
        counted .customersUpdated (.json 200 change.toJson)
  | .customer part, "DELETE" => some <| withId part fun id =>
    outcome (Customers.delete id) fun _ => counted .customersDeleted (.empty 204)
  | _, _ => none

/-- Responds to a request. What is served for GET is served for HEAD without its body, and
OPTIONS are told of every target. -/
def respond (node : Node) (r : Request) : Action Response :=
  let endpoint := Endpoint.ofPath? (pathOf r.target)
  let allow := endpoint.map Endpoint.allowed
  if r.method = "OPTIONS" then pure ⟨200, allow, .empty⟩
  else
    match endpoint with
    | none => pure (.empty 404)
    | some endpoint =>
      match node.serve? r endpoint (if r.method = "HEAD" then "GET" else r.method) with
      | none => pure ⟨405, allow, .empty⟩
      | some response =>
        if r.method = "HEAD" then Response.headOnly <$> response else response

end Node

end CustomerSegments.Http
