import CustomerSegments.Proofs.FieldPaths
import CustomerSegments.Proofs.RuleTests

namespace CustomerSegments

namespace Customer

/-- The names of the members of a customer's document. -/
def fieldNames : List String :=
  "id" :: Profile.memberNames ++ ["createdAt", "updatedAt"]

/-- The record of a customer with other attributes. -/
def withAttributes (c : Customer) (attributes : List (String × Json)) : Customer :=
  { c with profile := { c.profile with attributes := attributes } }

variable {c : Customer} {name : String}

theorem isSome_get?_iff : (c.toJson.get? name).isSome ↔ name ∈ fieldNames := by
  rw [get?_toJson, List.lookup_isSome_iff, fieldNames, ← c.names_members]
  simp

theorem get?_withAttributes (apart : name ≠ "attributes") (attributes : List (String × Json)) :
    (c.withAttributes attributes).toJson.get? name = c.toJson.get? name := by
  rw [get?_toJson, get?_toJson]
  simp only [members, Profile.members, List.cons_append, List.nil_append, Json.lookup_cons_eq, if_neg apart]
  rfl

theorem get?_attributes (c : Customer) : c.toJson.get? "attributes" = some (.object c.profile.attributes) := by
  rw [get?_toJson]
  rfl

/-- The value of a field is the member of that name, which is there even if it is null. -/
theorem resolve_field (field : name ∈ fieldNames) :
    resolve c.toJson name = (c.toJson.get? name).filter (!·.isNull) := by
  have dotless : ∀ name ∈ fieldNames, '.' ∉ name.toList := by decide +kernel
  obtain ⟨value, found⟩ := Option.isSome_iff_exists.1 (isSome_get?_iff.2 field)
  rw [resolve_of_dotless (dotless name field), found, Option.some_or]

/-- The value of any other name is the attribute of that name. -/
theorem resolve_attribute (dotless : '.' ∉ name.toList) (other : name ∉ fieldNames) :
    resolve c.toJson name = (c.profile.attributes.lookup name).filter (!·.isNull) := by
  have absent : c.toJson.get? name = none := by
    rw [← Option.not_isSome_iff_eq_none, isSome_get?_iff]
    exact other
  rw [resolve_of_dotless dotless, absent, Option.none_or, get?_attributes, Option.bind_some]
  rfl

/-- Attributes neither hide the fields of a customer nor stand in for them. Customers who differ in their attributes
only pass the same rules, if every rule that is not left out is on a field of customers other than the attributes
themselves, be the field null or not; and the value of a name without dots that is no such field is the
attribute of that name, where one that is null or absent is missing. -/
theorem attributes_apart_from_fields (c : Customer) :
    (∀ (attributes : List (String × Json)) (rules : List Rule) (now : Instant),
        (∀ r ∈ rules, (r.condition? now).isSome →
          storedField r.term.field ∈ fieldNames ∧ storedField r.term.field ≠ "attributes") →
        (compile rules now).predicate.holds (c.withAttributes attributes).toJson =
          (compile rules now).predicate.holds c.toJson) ∧
      ∀ name : String, '.' ∉ name.toList → name ∉ fieldNames →
        resolve c.toJson name = (c.profile.attributes.lookup name).filter (!·.isNull) := by
  constructor
  · intro attributes rules now onFields
    refine holds_compile_congr fun r inRules kept => ?_
    obtain ⟨field, apart⟩ := onFields r inRules kept
    rw [resolve_field field, resolve_field field, get?_withAttributes apart]
  · exact fun name dotless other => resolve_attribute dotless other

/-- Ada has no e-mail address, whatever attribute is called so, and her other attributes are found by their names. -/
theorem attributes_apart_from_fields_of_ada :
    let ada : Customer := ⟨⟨1, by decide⟩, .named "Ada", .epoch, .epoch⟩
    let labels : List (String × Json) := [("email", .string "ada@example.com"), ("tier", .null), ("vip", .bool true)]
    let rules : List Rule := [.single "email" "exists" .null]
    (compile rules .epoch).predicate.holds (ada.withAttributes labels).toJson = false ∧
      resolve (ada.withAttributes labels).toJson "tier" = none ∧
      resolve (ada.withAttributes labels).toJson "vip" = some (.bool true) := by
  intro ada labels rules
  obtain ⟨alike, -⟩ := ada.attributes_apart_from_fields
  obtain ⟨-, found⟩ := (ada.withAttributes labels).attributes_apart_from_fields
  have missing : (compile rules .epoch).predicate.holds ada.toJson = false := by decide +kernel
  refine ⟨(alike labels rules .epoch (by decide +kernel)).trans missing, ?_, ?_⟩
  · exact found "tier" (by decide +kernel) (by decide +kernel)
  · exact found "vip" (by decide +kernel) (by decide +kernel)

end Customer

end CustomerSegments
