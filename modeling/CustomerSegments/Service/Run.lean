import CustomerSegments.Service.Customers
import CustomerSegments.Service.Segments
import CustomerSegments.Store.Memory

namespace CustomerSegments.Service

open Store

/-- What the two services can be asked to do. -/
inductive Request where
  | previewAudience (rules : List Rule)
  | listSegments
  | getSegment (id : Uuid)
  | summarizeSegment (id : Uuid)
  | createSegment (request : NewSegment) (createdBy : String)
  | updateSegment (id : Uuid) (patch : SegmentPatch)
  | deleteSegment (id : Uuid)
  | listCustomers
  | getCustomer (id : Uuid)
  | createCustomer (request : NewCustomer)
  | importCustomers (requests : List NewCustomer)
  | updateCustomer (id : Uuid) (patch : CustomerPatch)
  | deleteCustomer (id : Uuid)

namespace Request

/-- What an accepted request gives. -/
@[reducible]
def Result : Request → Type
  | previewAudience _ | deleteSegment _ => Nat
  | listSegments => List Segment
  | getSegment _ | createSegment _ _ | updateSegment _ _ => Segment
  | summarizeSegment _ => SegmentSummary
  | listCustomers => List Customer
  | getCustomer _ => Customer
  | createCustomer _ | updateCustomer _ _ => CustomerChange
  | importCustomers _ => BulkImport
  | deleteCustomer _ => DeltaOutcome

def operation : (r : Request) → Operation r.Result
  | previewAudience rules => Attempt.sure (Audience.preview rules)
  | listSegments => Segments.list
  | getSegment id => Segments.get id
  | summarizeSegment id => Segments.summary id
  | createSegment request createdBy => Segments.create request createdBy
  | updateSegment id patch => Segments.update id patch
  | deleteSegment id => Segments.delete id
  | listCustomers => Customers.list
  | getCustomer id => Customers.get id
  | createCustomer request => Customers.create request
  | importCustomers requests => Customers.bulkImport requests
  | updateCustomer id patch => Customers.update id patch
  | deleteCustomer id => Customers.delete id

end Request

/-- Runs a task over a store in memory, in which the calls of some methods fail. -/
def runInMemory (failing : List Method) (task : Action α) (w : World Memory) : α × World Memory :=
  World.run Memory.answer (withFailing failing task) w

/-- Serves one request while the calls of some methods fail. -/
def serve (failing : List Method) (r : Request) (w : World Memory) :
    Except Error r.Result × World Memory :=
  runInMemory failing r.operation.run w

/-- A request and the methods whose calls fail while it is served. -/
structure Step where
  failing : List Method
  request : Request

/-- The world after requests are served one after the other. -/
def serveAll (steps : List Step) (w : World Memory) : World Memory :=
  steps.foldl (fun w step => (serve step.failing step.request w).2) w

end CustomerSegments.Service
