import CustomerSegments.Audience
import CustomerSegments.Request

namespace CustomerSegments

/-- A customer after a write, and what became of the sizes of its segments. -/
structure CustomerChange where
  customer : Customer
  membership : DeltaOutcome

/-- A record of a bulk import that was left out. -/
structure Rejection where
  index : Nat
  message : String
deriving DecidableEq

/-- The outcome of a bulk import. -/
structure BulkImport where
  imported : Nat
  rejected : List Rejection
  membership : DeltaOutcome

namespace DeltaOutcome

def toJson (o : DeltaOutcome) : Json :=
  .mk [("applied", .array (o.applied.map Uuid.toJson)),
    ("failed", .array (o.failed.map Uuid.toJson))]

end DeltaOutcome

def CustomerChange.toJson (c : CustomerChange) : Json :=
  .mk [("customer", c.customer.toJson), ("membership", c.membership.toJson)]

def Rejection.toJson (r : Rejection) : Json :=
  .mk [("index", .ofNat r.index), ("message", .string r.message)]

def BulkImport.toJson (b : BulkImport) : Json :=
  .mk [("imported", .ofNat b.imported), ("rejected", .array (b.rejected.map Rejection.toJson)),
    ("membership", b.membership.toJson)]

namespace Customers

open Store

def list : Operation (List Customer) :=
  call .listCustomers

/-- The customer of an id, who has to be there. -/
def get (id : Uuid) : Operation Customer := do
  match ← call (.getCustomer id) with
  | some c => pure c
  | none => throw (.missing .customer id)

/-- Stores a new customer, then adds one to each of its segments. -/
def create (request : NewCustomer) : Operation CustomerChange := do
  let name ← Attempt.settled (validName .customer request.profile.name)
  let now ← Attempt.now
  let id ← Attempt.freshId .customer
  let customer : Customer :=
    ⟨id, { request.profile with name := name }, request.createdAt.getD now, now⟩
  call (.insertCustomer customer)
  return ⟨customer, ← Attempt.sure (Audience.customerCreated customer)⟩

/-- Creates customers one after the other, given the outcome so far and the place of the next
one. An invalid record is reported and passed over; any other error ends the import. -/
def importFrom (index : Nat) (done : BulkImport) : List NewCustomer → Operation BulkImport
  | [] => pure done
  | request :: rest => do
    let outcome ← Attempt.sure (create request).run
    match outcome with
    | .ok change =>
      importFrom (index + 1)
        { done with imported := done.imported + 1
                    membership := done.membership ++ change.membership } rest
    | .error (.validation message) =>
      importFrom (index + 1) { done with rejected := done.rejected ++ [⟨index, message⟩] } rest
    | .error e => throw e

/-- Creates many customers. -/
def bulkImport (requests : List NewCustomer) : Operation BulkImport :=
  importFrom 0 ⟨0, [], .empty⟩ requests

/-- Replaces the parts of a customer that are present. Only the difference between the old and
the new segments moves audience sizes. -/
def update (id : Uuid) (patch : CustomerPatch) : Operation CustomerChange := do
  let old ← get id
  let name ← match patch.name with
    | none => pure old.profile.name
    | some name => Attempt.settled (validName .customer name)
  let now ← Attempt.now
  let customer : Customer :=
    { old with profile := { patch.apply old.profile with name := name }, updatedAt := now }
  call (.updateCustomer customer)
  let membership ←
    if old.segments ≠ customer.segments then
      Attempt.sure (Audience.customerUpdated old.segments customer.segments)
    else pure .empty
  return ⟨customer, membership⟩

/-- Deletes a customer and takes one from each of its segments. -/
def delete (id : Uuid) : Operation DeltaOutcome := do
  match ← call (.deleteCustomer id) with
  | none => throw (.missing .customer id)
  | some c => Attempt.sure (Audience.customerDeleted c)

end Customers

end CustomerSegments
