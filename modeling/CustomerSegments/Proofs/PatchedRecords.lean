import CustomerSegments.Proofs.CustomerOperations
import CustomerSegments.Proofs.SegmentOperations

namespace CustomerSegments

/-- A part of a record after a patch: the part that is present in the patch, or else the old one. -/
structure Replaces {α : Type} (present : Option α) (old new : α) : Prop where
  taken : ∀ a, present = some a → new = a
  kept : present = none → new = old

namespace Replaces

variable {α : Type} {present : Option α} {old new last : α}

theorem of_getD (present : Option α) (old : α) : Replaces present old (present.getD old) := by
  cases present with
  | none => exact ⟨nofun, fun _ => rfl⟩
  | some a => exact ⟨fun _ same => Option.some.inj same, nofun⟩

theorem eq_getD (replaces : Replaces present old new) : new = present.getD old := by
  cases present with
  | none => exact replaces.kept rfl
  | some a => exact replaces.taken a rfl

/-- A part that may be missing from a record is never taken away by a patch. -/
theorem of_or (present old : Option α) : Replaces (present.map some) old (present.or old) := by
  cases present with
  | none => exact ⟨nofun, fun _ => rfl⟩
  | some a => exact ⟨fun _ same => Option.some.inj same, nofun⟩

/-- A patch has nothing left to replace in what it made. -/
theorem again (first : Replaces present old new) (second : Replaces present new last) : last = new := by
  cases present with
  | none => exact second.kept rfl
  | some a => exact (second.taken a rfl).trans (first.taken a rfl).symm

end Replaces

/-- A customer with the parts that are present in a patch, the name trimmed. Only the time of the last update is left
open. -/
structure CustomerPatch.Patches (patch : CustomerPatch) (old new : Customer) : Prop where
  id : new.id = old.id
  createdAt : new.createdAt = old.createdAt
  name : Replaces (patch.name.map Text.trim) old.profile.name new.profile.name
  email : Replaces (patch.email.map some) old.profile.email new.profile.email
  phone : Replaces (patch.phone.map some) old.profile.phone new.profile.phone
  totalSpend : Replaces patch.totalSpend old.profile.totalSpend new.profile.totalSpend
  visitCount : Replaces patch.visitCount old.profile.visitCount new.profile.visitCount
  lastVisit : Replaces (patch.lastVisit.map some) old.profile.lastVisit new.profile.lastVisit
  lastOrderDate : Replaces (patch.lastOrderDate.map some) old.profile.lastOrderDate new.profile.lastOrderDate
  preferredCategory :
    Replaces (patch.preferredCategory.map some) old.profile.preferredCategory new.profile.preferredCategory
  location : Replaces (patch.location.map some) old.profile.location new.profile.location
  status : Replaces patch.status old.profile.status new.profile.status
  tags : Replaces patch.tags old.profile.tags new.profile.tags
  attributes : Replaces patch.attributes old.profile.attributes new.profile.attributes
  segments : Replaces patch.segments old.segments new.segments

namespace CustomerPatch

variable {patch : CustomerPatch} {old new last : Customer}

/-- The name after a patch. -/
def nameOf (patch : CustomerPatch) (old : Customer) : String :=
  (patch.name.map Text.trim).getD old.profile.name

theorem patches_revised (patch : CustomerPatch) (old : Customer) (now : Instant) :
    patch.Patches old (Customers.revised old patch (patch.nameOf old) now) where
  id := rfl
  createdAt := rfl
  name := .of_getD _ _
  email := .of_or _ _
  phone := .of_or _ _
  totalSpend := .of_getD _ _
  visitCount := .of_getD _ _
  lastVisit := .of_or _ _
  lastOrderDate := .of_or _ _
  preferredCategory := .of_or _ _
  location := .of_or _ _
  status := .of_getD _ _
  tags := .of_getD _ _
  attributes := .of_getD _ _
  segments := .of_getD _ _

namespace Patches

/-- A patch that is made again moves the time of the last update alone. -/
theorem again (first : patch.Patches old new) (second : patch.Patches new last) :
    last = { new with updatedAt := last.updatedAt } := by
  obtain ⟨_, ⟨⟩, _, _⟩ := last
  obtain ⟨_, ⟨⟩, _, _⟩ := new
  simp only [Customer.mk.injEq, Profile.mk.injEq, and_true]
  exact ⟨second.id, ⟨first.name.again second.name, first.email.again second.email, first.phone.again second.phone,
    first.totalSpend.again second.totalSpend, first.visitCount.again second.visitCount,
    first.lastVisit.again second.lastVisit, first.lastOrderDate.again second.lastOrderDate,
    first.preferredCategory.again second.preferredCategory, first.location.again second.location,
    first.status.again second.status, first.tags.again second.tags, first.attributes.again second.attributes,
    first.segments.again second.segments⟩, second.createdAt⟩

end Patches

end CustomerPatch

/-- A segment with the parts that are present in a patch, the name trimmed. The audience size and the time of the last
update are left open. -/
structure SegmentPatch.Patches (patch : SegmentPatch) (old new : Segment) : Prop where
  id : new.id = old.id
  createdAt : new.createdAt = old.createdAt
  createdBy : new.createdBy = old.createdBy
  name : Replaces (patch.name.map Text.trim) old.name new.name
  description : Replaces (patch.description.map some) old.description new.description
  rules : Replaces patch.rules old.rules new.rules
  isActive : Replaces patch.isActive old.isActive new.isActive

namespace SegmentPatch

variable {patch : SegmentPatch} {old new last : Segment}

/-- The name after a patch. -/
def nameOf (patch : SegmentPatch) (old : Segment) : String :=
  (patch.name.map Text.trim).getD old.name

theorem patches_revised (patch : SegmentPatch) (old : Segment) (now : Instant) :
    patch.Patches old (Segments.revised old patch (patch.nameOf old) now) where
  id := rfl
  createdAt := rfl
  createdBy := rfl
  name := .of_getD _ _
  description := .of_or _ _
  rules := .of_getD _ _
  isActive := .of_getD _ _

namespace Patches

/-- The name is settled by the first patch. -/
theorem nameOf_eq (patches : patch.Patches old new) : patch.nameOf new = new.name :=
  patches.name.again (.of_getD _ _)

theorem resized (patches : patch.Patches old new)
    (same : last = { new with audienceSize := last.audienceSize, updatedAt := last.updatedAt }) :
    patch.Patches old last := by
  rw [same]
  exact ⟨patches.id, patches.createdAt, patches.createdBy, patches.name, patches.description, patches.rules,
    patches.isActive⟩

/-- A patch that is made again moves the audience size and the time of the last update alone. -/
theorem again (first : patch.Patches old new) (second : patch.Patches new last) :
    last = { new with audienceSize := last.audienceSize, updatedAt := last.updatedAt } := by
  cases last
  simp only [Segment.mk.injEq, true_and]
  exact ⟨second.id, first.name.again second.name, first.description.again second.description,
    first.rules.again second.rules, first.isActive.again second.isActive, second.createdAt, second.createdBy⟩

end Patches

end SegmentPatch

end CustomerSegments
