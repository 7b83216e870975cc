import CustomerSegments.Predicate.Matching
import CustomerSegments.Proofs.RecordText

namespace CustomerSegments

theorem dotted_ne_nil (cs : List Char) : dotted cs ≠ [] := by
  cases cs with
  | nil => exact List.cons_ne_nil _ _
  | cons c cs =>
    rw [dotted]
    split
    · exact List.cons_ne_nil _ _
    · split <;> exact List.cons_ne_nil _ _

/-- A text that has one part between its dots is that part. -/
theorem eq_of_dotted_eq_singleton {cs part : List Char} (alone : dotted cs = [part]) : cs = part := by
  induction cs generalizing part with
  | nil => exact (List.cons.inj alone).1
  | cons c cs ih =>
    rw [dotted] at alone
    split at alone
    · exact absurd (List.cons.inj alone).2 (dotted_ne_nil cs)
    · split at alone
      · next none => exact absurd none (dotted_ne_nil cs)
      · next first rest shape =>
        obtain ⟨rfl, rfl⟩ := List.cons.inj alone
        rw [ih shape]

theorem dotted_of_dotless {cs : List Char} (dotless : '.' ∉ cs) : dotted cs = [cs] := by
  induction cs with
  | nil => rfl
  | cons c cs ih =>
    obtain ⟨first, rest⟩ := not_or.1 (mt List.mem_cons.2 dotless)
    rw [dotted, if_neg (Ne.symm first), ih rest]

theorem pathOf_ne_nil (field : String) : pathOf field ≠ [] := by
  rw [pathOf, ne_eq, List.map_eq_nil_iff]
  exact dotted_ne_nil _

theorem eq_of_pathOf_eq_singleton {field name : String} (alone : pathOf field = [name]) : field = name := by
  obtain ⟨part, only, rfl⟩ := List.map_eq_singleton_iff.1 alone
  rw [← eq_of_dotted_eq_singleton only, String.ofList_toList]

theorem pathOf_of_dotless {name : String} (dotless : '.' ∉ name.toList) : pathOf name = [name] := by
  rw [pathOf, dotted_of_dotless dotless, List.map_singleton, String.ofList_toList]

namespace Json

theorem lookup?_cons (document : Json) (name : String) (rest : List String) :
    document.lookup? (name :: rest) = (document.get? name).bind (·.lookup? rest) := by
  rw [lookup?, List.foldlM_cons]
  rfl

/-- A path goes on through objects only. -/
theorem lookup?_array (items : List Json) {path : List String} (further : path ≠ []) :
    (array items).lookup? path = none := by
  obtain ⟨name, rest, rfl⟩ := List.exists_cons_of_ne_nil further
  rw [lookup?_cons]
  rfl

end Json

/-- A name without dots is that of a member of the document, or else that of an attribute. -/
theorem resolve_of_dotless {document : Json} {name : String} (dotless : '.' ∉ name.toList) :
    resolve document name =
      ((document.get? name).or ((document.get? "attributes").bind (·.get? name))).filter (!·.isNull) := by
  have alone (d : Json) : d.lookup? [name] = d.get? name := by
    rw [Json.lookup?_cons]
    exact Option.bind_fun_some _
  rw [resolve, pathOf_of_dotless dotless]
  simp only [alone]

/-- The values that a test is made on: the elements of an array, or else the value itself. -/
def Json.elements : Json → List Json
  | array items => items
  | value => [value]

theorem someElement_eq_any (test : Json → Bool) (v : Json) : someElement test v = v.elements.any test := by
  cases v with
  | array items => rfl
  | _ => exact (Bool.or_false _).symm

/-- A condition on a field with a value asks for an element that passes its test, or for none. -/
theorem Condition.holds_of_resolve (c : Condition) {document v : Json} (resolved : resolve document c.field = some v) :
    c.holds document = (v.elements.any c.test ^^ c.isNegative) := by
  rw [holds, resolved, Option.any_some, someElement_eq_any]
  cases c.isNegative <;> simp

section

variable {document value : Json} {field : String}

/-- A member of a document that is not null is the value of its own name. -/
theorem resolve_of_get? (alone : pathOf field = [field]) (found : document.get? field = some value)
    (present : value.isNull = false) : resolve document field = some value := by
  have looked : document.lookup? (pathOf field) = some value := by
    rw [alone, Json.lookup?_cons, found]
    rfl
  rw [resolve, looked, Option.some_or, Option.filter_some, if_pos (by rw [present]; rfl)]

/-- A string has no elements, so that a condition tests it itself. -/
theorem Condition.holds_of_string (c : Condition) {s : String}
    (resolved : resolve document c.field = some (.string s)) :
    c.holds document = (c.test (.string s) ^^ c.isNegative) := by
  have alone : (Json.string s).elements.any c.test = c.test (.string s) := Bool.or_false _
  rw [c.holds_of_resolve resolved, alone]

/-- An ordering accepts how the string compares with the operand, if it does. -/
theorem Condition.holds_ordered (c : Condition) {s : String} {accept : Ordering → Bool}
    (resolved : resolve document c.field = some (.string s)) (ordering : c.test = c.operand.ordered accept)
    (positive : c.isNegative = false) : c.holds document = (compareTo (.string s) c.operand).any accept := by
  rw [c.holds_of_string resolved, ordering, positive, Bool.xor_false, Operand.ordered]

end

namespace Customer

variable (c : Customer)

theorem get?_toJson (name : String) : c.toJson.get? name = c.members.lookup name :=
  Json.lookup_ofMembers c.distinct_members name

end Customer

end CustomerSegments
